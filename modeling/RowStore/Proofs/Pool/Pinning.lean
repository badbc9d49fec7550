import RowStore.Proofs.Pool.History

/-!
# Pinned pages

A page with a handle out never gives way to another.  So a request for a page that is not resident
fails exactly if there is no empty frame and every resident page has a handle out
(`Desk.Exhausted`).  Then nothing changes; otherwise the page is admitted, and at most one page
leaves the pool for it, one without handles (`Desk.Admits`).

`Script.load_stage` says this for every stage of every run, with loaders that call the pool
themselves: what counts is the state when the loader is done.  It also says that a page with a
handle out only leaves the pool when it is discarded.
-/

namespace RowStore

variable {α : Type}

namespace Desk

/-- A client keeps a handle. -/
def Keeps (d : Desk α) (h : Handle α) : Prop := ∃ name, d.kept.find? name = some h

/-- No frame is empty, and the page of every frame has a handle that some client keeps. -/
def Exhausted (d : Desk α) : Prop :=
  d.pool.free = [] ∧
    ∀ frame < d.pool.frames.length, ∃ h, d.pool.handleIn? frame = some h ∧ d.Keeps h

/-- A page has been admitted under a handle.  If a frame was empty, all other pages are where they
were; if none was, this goes for all but one, of which no client keeps a handle. -/
structure Admits (d : Desk α) (page : PageId) (h : Handle α) (after : Desk α) : Prop where
  resident : ∃ frame, after.pool.lookup page = some (frame, h)
  of_empty : d.pool.free ≠ [] → ∀ other, other ≠ page →
    after.pool.lookup other = d.pool.lookup other
  of_full : d.pool.free = [] → ∃ victim frame old, d.pool.lookup victim = some (frame, old) ∧
    (∀ k, d.Keeps k → k.ticket ≠ old.ticket) ∧
    ∀ other, other ≠ page →
      after.pool.lookup other = if other = victim then none else d.pool.lookup other

lemma lookup_keep (d : Desk α) (name : Option String) (h : Handle α) (page : PageId) :
    (d.keep name h).pool.lookup page = d.pool.lookup page := by
  cases name with
  | none => rfl
  | some name =>
    rw [keep, release]
    split <;> rfl

namespace Sound

variable {d : Desk α} {count : ℕ}

/-- The tickets that are out are those of the handles that clients keep. -/
lemma mem_out_iff (hd : d.Sound count []) (ticket : ℕ) :
    ticket ∈ d.pool.out ↔ ∃ k, d.Keeps k ∧ k.ticket = ticket := by
  rw [hd.out_perm.mem_iff]
  simp only [List.map_nil, List.nil_append, List.mem_map]
  constructor
  · rintro ⟨⟨name, k⟩, hmem, ht⟩
    exact ⟨k, ⟨name, (d.kept.find?_eq_some_iff name k).2 hmem⟩, ht⟩
  · rintro ⟨k, ⟨name, hk⟩, ht⟩
    exact ⟨(name, k), (d.kept.find?_eq_some_iff name k).1 hk, ht⟩

/-- A page is pinned exactly if its handle is kept. -/
lemma isPinned_iff (hd : d.Sound count []) {frame : ℕ} {page : PageId} {h : Handle α}
    (hr : d.pool.residentIn? frame = some (page, h)) :
    d.pool.isPinned frame = true ↔ d.Keeps h := by
  rw [Pool.isPinned_iff]
  constructor
  · rintro ⟨page', h', hr', hout⟩
    rw [hr] at hr'
    cases hr'
    obtain ⟨k, ⟨name, hk⟩, ht⟩ := (hd.mem_out_iff _).1 hout
    have hsame : h = k := (hd.known_kept hk).2 frame page h hr ht.symm
    exact ⟨name, hsame ▸ hk⟩
  · intro hk
    exact ⟨page, h, hr, (hd.mem_out_iff _).2 ⟨h, hk, rfl⟩⟩

/-- If no room can be made, the desk is exhausted. -/
lemma exhausted_of_allocates (hd : d.Sound count [])
    (ha : Pool.Allocates d.pool none d.pool) : d.Exhausted := by
  cases ha with
  | full hfree hpinned =>
    refine ⟨hfree, fun frame hlt => ?_⟩
    have hresident : d.pool.residentIn? frame ≠ none := fun hnone => by
      have := (hd.pool.mem_free_iff frame).2 ⟨hd.pool.length_frames ▸ hlt, hnone, by simp⟩
      rw [hfree] at this
      cases this
    obtain ⟨⟨page, h⟩, hr⟩ := Option.ne_none_iff_exists'.1 hresident
    refine ⟨h, ?_, (hd.isPinned_iff hr).1 (hpinned frame _ hr)⟩
    rw [Pool.handleIn?_eq, hr]
    rfl

/-- If room can be made, the desk is not exhausted. -/
lemma not_exhausted_of_allocates (hd : d.Sound count []) {frame : ℕ} {made : Pool α}
    (ha : Pool.Allocates d.pool (some frame) made) : ¬ d.Exhausted := by
  rintro ⟨hempty, hkept⟩
  cases ha with
  | free hfree =>
    rw [hempty] at hfree
    cases hfree
  | @evict _ page h clock hfree hresident hpinned hclock =>
    obtain ⟨h', hh', hk⟩ := hkept frame (Pool.lt_of_residentIn? hresident)
    rw [Pool.handleIn?_eq, hresident] at hh'
    cases hh'
    rw [(hd.isPinned_iff hresident).2 hk] at hpinned
    cases hpinned

/-- A page that is put into the room that was made for it is admitted. -/
lemma admits_of_allocates (hd : d.Sound count []) {page : PageId}
    (habsent : d.pool.lookup page = none) {frame : ℕ} {made : Pool α}
    (ha : Pool.Allocates d.pool (some frame) made) (name : Option String) (content : α) :
    d.Admits page ⟨made.nextTicket, content⟩ (Desk.keep
      ⟨(made.install frame page content).2, d.kept⟩ name ⟨made.nextTicket, content⟩) := by
  have hfind := Pool.Sound.find?_of_allocates ha (hd.pool.lookup_eq_none_iff.1 habsent)
  have hlookup := (ha.sound hd.pool).lookup_install hfind content
  have hother : ∀ other, other ≠ page →
      (made.install frame page content).2.lookup other = made.lookup other := by
    intro other hne
    rw [hlookup, if_neg hne]
  refine ⟨⟨frame, ?_⟩, fun hfree other hne => ?_, fun hfree => ?_⟩
  · rw [lookup_keep]
    show (made.install frame page content).2.lookup page = _
    rw [hlookup, if_pos rfl]
  · rw [lookup_keep]
    show (made.install frame page content).2.lookup other = _
    rw [hother other hne]
    rcases hd.pool.lookup_allocates ha with ⟨-, hsame⟩ | ⟨hnil, -⟩
    · exact hsame other
    · exact absurd hnil hfree
  · rcases hd.pool.lookup_allocates ha with ⟨hne, -⟩ | ⟨-, victim, old, hold, hout, hgone⟩
    · exact absurd hfree hne
    · refine ⟨victim, frame, old, hold, fun k hk ht => ?_, fun other hne => ?_⟩
      · exact hout ((hd.mem_out_iff _).2 ⟨k, hk, ht⟩)
      · rw [lookup_keep]
        show (made.install frame page content).2.lookup other = _
        rw [hother other hne, hgone]

/-- A page that is not resident is admitted unless the desk is exhausted. -/
lemma accept_of_absent (hd : d.Sound count []) {page : PageId}
    (habsent : d.pool.lookup page = none) (name : Option String) (content : α) :
    (d.Exhausted ∧ d.accept page name content = (.error .poolFull, d)) ∨
      (¬ d.Exhausted ∧ ∃ h after, d.accept page name content = (.ok h, after) ∧
        h.content = content ∧ d.Admits page h after) := by
  rcases hd.pool.accept_of_lookup_none habsent content with ⟨ha, heq⟩ | ⟨frame, made, ha, heq⟩
  · refine .inl ⟨hd.exhausted_of_allocates ha, ?_⟩
    rw [Desk.accept, heq]
  · refine .inr ⟨hd.not_exhausted_of_allocates ha, _, _, ?_, rfl,
      hd.admits_of_allocates habsent ha name content⟩
    rw [Desk.accept, heq]

/-- A page of which a client keeps a handle does not give way to another. -/
lemma lookup_accept_of_keeps (hd : d.Sound count []) {page : PageId} {frame : ℕ} {h : Handle α}
    (hk : d.Keeps h) (hl : d.pool.lookup page = some (frame, h)) (other : PageId)
    (name : Option String) (content : α) :
    (d.accept other name content).2.pool.lookup page = some (frame, h) := by
  cases hother : d.pool.lookup other with
  | some found =>
    rw [← hl, Desk.accept, Pool.accept, hother]
    exact lookup_keep _ _ _ _
  | none =>
    have hne : page ≠ other := fun e => by
      rw [e, hother] at hl
      cases hl
    rcases hd.accept_of_absent hother name content with ⟨-, heq⟩ | ⟨-, h', after, heq, -, hadm⟩
    · rw [heq]
      exact hl
    · rw [heq]
      by_cases hfree : d.pool.free = []
      · obtain ⟨victim, vframe, old, hold, hnot, hrest⟩ := hadm.of_full hfree
        have hvictim : page ≠ victim := fun e => by
          rw [← e, hl] at hold
          cases hold
          exact hnot h hk rfl
        rw [hrest page hne, if_neg hvictim, hl]
      · rw [hadm.of_empty hfree page hne, hl]

/-- A page of which a client keeps a handle stays, unless it is discarded. -/
lemma lookup_act_of_keeps (hd : d.Sound count []) {page : PageId} {frame : ℕ} {h : Handle α}
    (hk : d.Keeps h) (hl : d.pool.lookup page = some (frame, h)) (a : Action α) :
    (d.act a).pool.lookup page = some (frame, h) ∨
      a = .discardPage page ∨ a = .discardTable page.table ∨ a = .clear := by
  cases a with
  | fetch other name =>
    left
    rw [← hl, ← Pool.lookup_fetch d.pool other page, Desk.act, Desk.fetch]
    rcases d.pool.fetch other with ⟨_ | found, pool⟩
    · rfl
    · exact lookup_keep _ _ _ _
  | countMiss => exact .inl hl
  | accept other name content => exact .inl (hd.lookup_accept_of_keeps hk hl other name content)
  | release name =>
    left
    rw [← hl, Desk.act, Desk.release]
    split <;> rfl
  | discardPage other =>
    by_cases hp : other = page
    · exact .inr (.inl (hp ▸ rfl))
    · left
      show (d.pool.discardPage other).2.lookup page = _
      rw [hd.pool.lookup_discardPage, if_neg (fun e => hp e.symm), hl]
  | discardTable table =>
    by_cases ht : table = page.table
    · exact .inr (.inr (.inl (ht ▸ rfl)))
    · left
      show (d.pool.discardTable table).2.lookup page = _
      rw [hd.pool.lookup_discardTable, if_neg (fun e => ht e.symm), hl]
  | clear => exact .inr (.inr (.inr rfl))

/-- A request whose loader brings a page that is still not resident. -/
lemma load_of_absent (hd : d.Sound count []) {page : PageId} (name : Option String)
    {loader : Script α} {content : α} {d₁ : Desk α} (habsent : d.pool.contains page = false)
    (hrun : loader.run d.countMiss = (.ok content, d₁))
    (hstill : d₁.pool.contains page = false) :
    d.load page name loader.run = d₁.accept page name content ∧ d₁.Sound count [] ∧
      d₁.pool.lookup page = none := by
  have hd₁ : d₁.Sound count [] := by
    have h := hd.countMiss.run loader
    rwa [hrun] at h
  have hlookup : ∀ {e : Desk α}, e.Sound count [] → e.pool.contains page = false →
      e.pool.lookup page = none := fun he hnot => by
    rw [he.pool.contains_eq] at hnot
    exact Option.not_isSome_iff_eq_none.1 (by rw [hnot]; exact Bool.false_ne_true)
  have hfetch : d.fetch page name = (none, d) := by
    rw [Desk.fetch, Pool.fetch, hlookup hd habsent]
  refine ⟨?_, hd₁, hlookup hd₁ hstill⟩
  rw [Desk.countMiss] at hrun
  simp only [load, hfetch, hrun]

end Sound

end Desk

/-- **Pinned pages stay, and a request fails only if all pages are pinned.**  At every stage of
every run:

* A request whose loader brings a page, which is not resident before and after it ran, fails
  exactly if the loader leaves the desk exhausted, and then nothing changes.  Otherwise it brings
  the page, for which at most one other gives way, and none of which a handle is kept.
* A page of which a handle is kept is where it was after any action that does not discard it. -/
theorem Script.load_stage (s : Script α) (count n : ℕ) :
    (∀ page keep (loader : Script α) content d₁,
      (s.stage count n).pool.contains page = false →
      loader.run (s.stage count n).countMiss = (.ok content, d₁) →
      d₁.pool.contains page = false →
      (((s.stage count n).load page keep loader.run).1 = .error .poolFull ↔ d₁.Exhausted) ∧
      (d₁.Exhausted → ((s.stage count n).load page keep loader.run).2 = d₁) ∧
      (¬ d₁.Exhausted → ∃ h, ((s.stage count n).load page keep loader.run).1 = .ok h ∧
        h.content = content ∧ d₁.Admits page h ((s.stage count n).load page keep loader.run).2)) ∧
    ∀ page frame h, (s.stage count n).Keeps h →
      (s.stage count n).pool.lookup page = some (frame, h) →
      ∀ a, ((s.stage count n).act a).pool.lookup page = some (frame, h) ∨
        a = .discardPage page ∨ a = .discardTable page.table ∨ a = .clear := by
  have hd := s.sound_stage count n
  refine ⟨fun page keep loader content d₁ habsent hrun hstill => ?_,
    fun page frame h hk hl a => hd.lookup_act_of_keeps hk hl a⟩
  obtain ⟨heq, hd₁, hnone⟩ := hd.load_of_absent keep habsent hrun hstill
  rw [heq]
  rcases hd₁.accept_of_absent hnone keep content with
    ⟨hex, hfail⟩ | ⟨hex, h, after, hok, hcontent, hadmits⟩
  · rw [hfail]
    exact ⟨⟨fun _ => hex, fun _ => rfl⟩, fun _ => rfl, fun hnot => absurd hex hnot⟩
  · rw [hok]
    refine ⟨⟨fun h => (by cases h), fun h => absurd h hex⟩, fun h => absurd h hex, fun _ => ?_⟩
    exact ⟨h, rfl, hcontent, hadmits⟩

/-- A client that loads a page into the only frame and keeps its handle. -/
def Script.pinning : Script ℕ :=
  .load ⟨⟨0⟩, ⟨0⟩⟩ (.finish (.ok 10)) (some "first") fun _ => .finish (.ok 0)

/-- A request for another page fails after `Script.pinning` even if its loader asks for the pinned
page again, and succeeds if its loader gives the handle back. -/
theorem Script.load_stage_pinning :
    ((pinning.stage 1 3).load ⟨⟨0⟩, ⟨1⟩⟩ none
      (fetch ⟨⟨0⟩, ⟨0⟩⟩ (some "second") fun _ => .finish (.ok 20)).run).1 = .error .poolFull ∧
    (∃ h, ((pinning.stage 1 3).load ⟨⟨0⟩, ⟨1⟩⟩ none
      (release "first" fun _ => .finish (.ok 20)).run).1 = .ok h ∧ h.content = 20) ∧
    ((pinning.stage 1 3).act (.discardPage ⟨⟨0⟩, ⟨1⟩⟩)).pool.lookup ⟨⟨0⟩, ⟨0⟩⟩ =
      some (0, ⟨0, 10⟩) := by
  refine ⟨?_, ?_, ?_⟩
  · refine (((load_stage pinning 1 3).1 _ none _ 20 _ (by decide) rfl (by decide)).1).2 ?_
    refine ⟨rfl, fun frame hlt => ?_⟩
    obtain rfl : frame = 0 := Nat.lt_one_iff.1 hlt
    exact ⟨⟨0, 10⟩, rfl, "first", rfl⟩
  · have hloaded := ((load_stage pinning 1 3).1 ⟨⟨0⟩, ⟨1⟩⟩ none
      (release "first" fun _ => .finish (.ok 20)) 20 _ (by decide) rfl (by decide)).2.2
    have hroom : ¬ (((release "first" fun _ => .finish (.ok 20)).run
        (pinning.stage 1 3).countMiss).2).Exhausted := by
      rintro ⟨-, hex⟩
      obtain ⟨h, -, name, hk⟩ := hex 0 (by decide)
      cases hk
    obtain ⟨h, hok, hcontent, -⟩ := hloaded hroom
    exact ⟨h, hok, hcontent⟩
  · have hkept := (load_stage pinning 1 3).2 ⟨⟨0⟩, ⟨0⟩⟩ 0 ⟨0, 10⟩ ⟨"first", rfl⟩ rfl
    rcases hkept (.discardPage ⟨⟨0⟩, ⟨1⟩⟩) with h | h | h | h
    · exact h
    all_goals cases h

end RowStore
