import RowStore.Pool.Basic
import RowStore.Proofs.Pool.Sweep

/-!
# The parts of a pool agree

A pool keeps the same facts four times: in the frames, in the page table, in the list of empty
frames and in the clock.  `Pool.Sound` says that these agree, and this file shows that every
operation keeps it.

Between making room for a page and putting the page there, one frame is in none of the four: it is
empty, but not in the list of empty frames.  `Pool.Sound` names this frame, its *hole*, if there is
one.  `Pool.allocate` opens a hole (`sound_of_allocate`) and `Pool.install` fills it
(`Sound.install`); all other operations go from pools without a hole to such pools.

What clients see of a pool is `Pool.lookup`: a finite map from page ids to frames and handles.  For
each operation there is one equation that says what becomes of it (`lookup_install` and so on).
-/

namespace RowStore.Pool

variable {α : Type} {p q : Pool α} {count frame : ℕ} {page : PageId} {h : Handle α}
  {hole : Option ℕ}

/-! ## What a frame holds -/

/-- The page that a frame holds, and its handle. -/
def residentIn? (p : Pool α) (frame : ℕ) : Option (PageId × Handle α) :=
  p.frames[frame]?.bind Frame.resident

lemma pageIn?_eq (p : Pool α) (frame : ℕ) :
    p.pageIn? frame = (p.residentIn? frame).map Prod.fst := by
  cases hf : p.frames[frame]? <;> simp [pageIn?, residentIn?, Frame.pageId?, hf]

lemma handleIn?_eq (p : Pool α) (frame : ℕ) :
    p.handleIn? frame = (p.residentIn? frame).map Prod.snd := by
  cases hf : p.frames[frame]? <;> simp [handleIn?, residentIn?, Frame.handle?, hf]

lemma isPinned_iff (p : Pool α) (frame : ℕ) :
    p.isPinned frame = true ↔
      ∃ page h, p.residentIn? frame = some (page, h) ∧ h.ticket ∈ p.out := by
  cases hf : p.frames[frame]? with
  | none => simp [isPinned, residentIn?, hf]
  | some f =>
    obtain ⟨r⟩ := f
    cases r with
    | none => simp [isPinned, residentIn?, hf, Frame.isPinned]
    | some r =>
      obtain ⟨page, h⟩ := r
      simp [isPinned, residentIn?, hf, Frame.isPinned]

lemma lt_of_residentIn? {r : PageId × Handle α} (h : p.residentIn? frame = some r) :
    frame < p.frames.length := by
  by_contra hge
  rw [residentIn?, List.getElem?_eq_none (Nat.le_of_not_lt hge)] at h
  cases h

lemma residentIn?_congr (hpq : p.frames = q.frames) (frame : ℕ) :
    p.residentIn? frame = q.residentIn? frame := by
  rw [residentIn?, residentIn?, hpq]

lemma residentIn?_set {r : Option (PageId × Handle α)} (hlt : frame < p.frames.length)
    (hq : q.frames = p.frames.set frame ⟨r⟩) (other : ℕ) :
    q.residentIn? other = if other = frame then r else p.residentIn? other := by
  rw [residentIn?, hq, List.getElem?_set]
  by_cases hof : other = frame
  · subst hof
    simp [hlt]
  · rw [if_neg (fun e => hof e.symm), if_neg hof]
    rfl

/-! ## The page table and the frames -/

/-- The page table says where each page is, no two frames hold the same ticket, and the next ticket
is a new one. -/
structure Indexed (p : Pool α) : Prop where
  find?_iff : ∀ page frame, p.table.find? page = some frame ↔
    ∃ h, p.residentIn? frame = some (page, h)
  ticket_lt : ∀ {frame page h}, p.residentIn? frame = some (page, h) → h.ticket < p.nextTicket
  ticket_inj : ∀ {frame frame' page page' h h'}, p.residentIn? frame = some (page, h) →
    p.residentIn? frame' = some (page', h') → h.ticket = h'.ticket → frame = frame'

namespace Indexed

/-- A page is in one frame only. -/
lemma frame_unique (hp : p.Indexed) {frame frame' : ℕ} {h h' : Handle α}
    (hf : p.residentIn? frame = some (page, h)) (hf' : p.residentIn? frame' = some (page, h')) :
    frame = frame' := by
  have h1 := (hp.find?_iff page frame).2 ⟨h, hf⟩
  have h2 := (hp.find?_iff page frame').2 ⟨h', hf'⟩
  rw [h1] at h2
  exact Option.some.inj h2

/-- A look-up finds what the frames hold. -/
lemma lookup_eq_some_iff (hp : p.Indexed) :
    p.lookup page = some (frame, h) ↔ p.residentIn? frame = some (page, h) := by
  rw [lookup]
  cases ht : p.table.find? page with
  | none =>
    have hnone : ∀ h, p.residentIn? frame ≠ some (page, h) := fun h hr => by
      have := (hp.find?_iff page frame).2 ⟨h, hr⟩
      rw [ht] at this
      cases this
    simp [hnone]
  | some frame' =>
    obtain ⟨h', hr⟩ := (hp.find?_iff page frame').1 ht
    simp only [handleIn?_eq, hr, Option.map_some, Option.some.injEq, Prod.mk.injEq]
    constructor
    · rintro ⟨rfl, rfl⟩
      exact hr
    · intro hr'
      have hff := hp.frame_unique hr hr'
      subst hff
      rw [hr] at hr'
      cases hr'
      exact ⟨rfl, rfl⟩

lemma lookup_eq_none_iff (hp : p.Indexed) :
    p.lookup page = none ↔ p.table.find? page = none := by
  rw [lookup]
  cases ht : p.table.find? page with
  | none => simp
  | some frame =>
    obtain ⟨h, hr⟩ := (hp.find?_iff page frame).1 ht
    simp [handleIn?_eq, hr]

lemma contains_eq (hp : p.Indexed) (page : PageId) :
    p.contains page = (p.lookup page).isSome := by
  have hnone : p.lookup page = none ↔ p.table.find? page = none := hp.lookup_eq_none_iff
  rw [contains, Assoc.contains]
  cases ht : p.table.find? page <;> cases hl : p.lookup page <;> simp_all

/-- Look-ups are decided by what the frames hold. -/
lemma lookup_congr (hp : p.Indexed) (hq : q.Indexed) (page : PageId)
    (hres : ∀ frame h, q.residentIn? frame = some (page, h) ↔
      p.residentIn? frame = some (page, h)) :
    q.lookup page = p.lookup page := by
  apply Option.ext
  rintro ⟨frame, h⟩
  rw [hp.lookup_eq_some_iff, hq.lookup_eq_some_iff, hres]

lemma residentIn?_emptied (hp : p.Indexed) (hf : p.table.find? page = some frame)
    (hframes : q.frames = p.frames.set frame Frame.empty) (other : ℕ) :
    q.residentIn? other = if other = frame then none else p.residentIn? other := by
  obtain ⟨h, hr⟩ := (hp.find?_iff page frame).1 hf
  exact residentIn?_set (lt_of_residentIn? hr) hframes other

/-- The frame of a page is emptied and the page taken out of the page table. -/
lemma emptied (hp : p.Indexed) (hf : p.table.find? page = some frame)
    (hframes : q.frames = p.frames.set frame Frame.empty) (htable : q.table = p.table.erase page)
    (hticket : q.nextTicket = p.nextTicket) : q.Indexed := by
  have hres := hp.residentIn?_emptied hf hframes
  obtain ⟨h, hr⟩ := (hp.find?_iff page frame).1 hf
  exact {
    find?_iff := fun page' other => by
      rw [hres, htable, Assoc.find?_erase]
      by_cases hpage : page = page'
      · subst hpage
        rw [if_pos rfl]
        refine ⟨fun hf => (by cases hf), ?_⟩
        rintro ⟨h', hr'⟩
        split at hr'
        · cases hr'
        · next hne => exact absurd (hp.frame_unique hr' hr) hne
      · rw [if_neg hpage, hp.find?_iff]
        by_cases hother : other = frame
        · subst hother
          rw [if_pos rfl, hr]
          simp [hpage]
        · rw [if_neg hother]
    ticket_lt := fun {other _ _} hr' => by
      rw [hres] at hr'
      split at hr'
      · cases hr'
      · exact hticket ▸ hp.ticket_lt hr'
    ticket_inj := fun {other other' _ _ _ _} h1 h2 => by
      rw [hres] at h1 h2
      split at h1
      · cases h1
      · split at h2
        · cases h2
        · exact hp.ticket_inj h1 h2 }

/-- Where the frame of a page is emptied, that page is not found any more. -/
lemma lookup_emptied (hp : p.Indexed) (hf : p.table.find? page = some frame)
    (hframes : q.frames = p.frames.set frame Frame.empty) (htable : q.table = p.table.erase page)
    (hticket : q.nextTicket = p.nextTicket) (other : PageId) :
    q.lookup other = if other = page then none else p.lookup other := by
  have hq := hp.emptied hf hframes htable hticket
  split
  · next hpage =>
    rw [hq.lookup_eq_none_iff, htable, Assoc.find?_erase, if_pos hpage.symm]
  · next hpage =>
    obtain ⟨h, hr⟩ := (hp.find?_iff page frame).1 hf
    refine hp.lookup_congr hq other fun frame' h' => ?_
    rw [hp.residentIn?_emptied hf hframes]
    split
    · next hframe =>
      subst hframe
      have hpage' : ¬ page = other := fun e => hpage e.symm
      simp [hr, hpage']
    · rfl

/-- A page that was nowhere is put into an empty frame, with a new ticket. -/
lemma filled (hp : p.Indexed) (hlt : frame < p.frames.length) (hempty : p.residentIn? frame = none)
    (habsent : p.table.find? page = none) {content : α}
    (hframes : q.frames = p.frames.set frame ⟨some (page, ⟨p.nextTicket, content⟩)⟩)
    (htable : q.table = p.table.insert page frame) (hticket : q.nextTicket = p.nextTicket + 1) :
    q.Indexed := by
  have hres := residentIn?_set hlt hframes
  have hfresh : ∀ {other page h}, p.residentIn? other = some (page, h) → h.ticket ≠ p.nextTicket :=
    fun hr => (hp.ticket_lt hr).ne
  exact {
    find?_iff := fun page' other => by
      rw [hres, htable, Assoc.find?_insert]
      by_cases hpage : page = page'
      · subst hpage
        by_cases hother : other = frame
        · simp [hother]
        · have hne : ¬ frame = other := fun e => hother e.symm
          have hnone : ∀ h, p.residentIn? other ≠ some (page, h) := fun h hr => by
            have := (hp.find?_iff page other).2 ⟨h, hr⟩
            rw [habsent] at this
            cases this
          simp [hother, hne, hnone]
      · rw [if_neg hpage, hp.find?_iff]
        by_cases hother : other = frame
        · subst hother
          simp [hempty, hpage]
        · rw [if_neg hother]
    ticket_lt := fun {other _ _} hr => by
      rw [hticket]
      rw [hres] at hr
      split at hr
      · cases hr
        exact Nat.lt_succ_self _
      · exact (hp.ticket_lt hr).trans (Nat.lt_succ_self _)
    ticket_inj := fun {other other' _ _ _ _} hr hr' heq => by
      rw [hres] at hr hr'
      split at hr <;> split at hr'
      · next ho ho' => exact ho.trans ho'.symm
      · cases hr
        exact absurd heq.symm (hfresh hr')
      · cases hr'
        exact absurd heq (hfresh hr)
      · exact hp.ticket_inj hr hr' heq }

end Indexed

/-! ## Soundness -/

/-- The frames, the page table, the list of empty frames and the clock agree, for a number of
frames of which one may be a hole. -/
structure Sound (p : Pool α) (count : ℕ) (hole : Option ℕ) : Prop extends Indexed p where
  length_frames : p.frames.length = count
  capacity_clock : p.clock.capacity = count
  valid_clock : p.clock.Valid
  nodup_free : p.free.Nodup
  mem_free_iff : ∀ frame, frame ∈ p.free ↔
    frame < count ∧ p.residentIn? frame = none ∧ hole ≠ some frame
  hole_empty : ∀ {frame}, hole = some frame → frame < count ∧ p.residentIn? frame = none
  tracks_iff : ∀ frame, p.clock.tracks frame = true ↔ (p.residentIn? frame).isSome = true
  references_untracked : ∀ frame, p.clock.tracks frame = false → p.clock.references frame = false
  size_clock : p.clock.size = p.table.size
  total : p.free.length + p.table.size + hole.toList.length = count

namespace Sound

/-! ## Handing out and taking back -/

lemma ofFrames (count : ℕ) : (ofFrames count : Pool α).Sound count none := by
  have hempty : ∀ frame, (Pool.ofFrames count : Pool α).residentIn? frame = none := by
    intro frame
    by_cases hlt : frame < count <;> simp [residentIn?, Pool.ofFrames, hlt, Frame.empty]
  exact {
    length_frames := by simp [Pool.ofFrames]
    capacity_clock := by simp [Pool.ofFrames, Clock.ofCapacity, Clock.capacity]
    valid_clock := Clock.valid_ofCapacity count
    find?_iff := fun page frame => by
      rw [hempty]
      simp [Pool.ofFrames]
    ticket_lt := fun hr => by simp [hempty] at hr
    ticket_inj := fun hr => by simp [hempty] at hr
    nodup_free := List.nodup_range
    mem_free_iff := fun frame => by
      rw [hempty]
      simp [Pool.ofFrames]
    hole_empty := fun hh => by cases hh
    tracks_iff := fun frame => by
      rw [hempty]
      simp [Pool.ofFrames, Clock.tracks_ofCapacity]
    references_untracked := fun frame _ => Clock.references_ofCapacity count frame
    size_clock := rfl
    total := by simp [Pool.ofFrames, Assoc.size, EmptyCollection.emptyCollection, Assoc.empty] }

/-- Counters and outstanding handles have no part in soundness, and neither has a mark on a frame
that holds a page. -/
lemma congr (hp : p.Sound count hole) (hframes : q.frames = p.frames) (htable : q.table = p.table)
    (hfree : q.free = p.free) (hticket : q.nextTicket = p.nextTicket)
    (hclock : q.clock = p.clock ∨
      ∃ frame, p.clock.tracks frame = true ∧ q.clock = p.clock.touch frame) :
    q.Sound count hole := by
  have hres : ∀ frame, q.residentIn? frame = p.residentIn? frame := residentIn?_congr hframes
  have htracks : ∀ frame, q.clock.tracks frame = p.clock.tracks frame := by
    rcases hclock with hc | ⟨_, _, hc⟩ <;> simp [hc]
  exact {
    length_frames := hframes ▸ hp.length_frames
    capacity_clock := by
      rcases hclock with hc | ⟨_, _, hc⟩ <;> simp [hc, hp.capacity_clock]
    valid_clock := by
      rcases hclock with hc | ⟨f, _, hc⟩
      · exact hc ▸ hp.valid_clock
      · exact hc ▸ hp.valid_clock.touch f
    find?_iff := fun page frame => by rw [htable, hres, hp.find?_iff]
    ticket_lt := fun {frame _ _} hr => by
      rw [hres] at hr
      exact hticket ▸ hp.ticket_lt hr
    ticket_inj := fun {frame frame' _ _ _ _} hr hr' => by
      rw [hres] at hr hr'
      exact hp.ticket_inj hr hr'
    nodup_free := hfree ▸ hp.nodup_free
    mem_free_iff := fun frame => by rw [hfree, hres, hp.mem_free_iff]
    hole_empty := fun {frame} hh => by
      rw [hres]
      exact hp.hole_empty hh
    tracks_iff := fun frame => by rw [htracks, hres, hp.tracks_iff]
    references_untracked := fun frame ht => by
      rw [htracks] at ht
      rcases hclock with hc | ⟨f, hf, hc⟩
      · rw [hc, hp.references_untracked frame ht]
      · have hne : frame ≠ f := fun e => by
          rw [e, hf] at ht
          cases ht
        rw [hc, Clock.references_touch (Clock.lt_capacity_of_tracks hf),
          hp.references_untracked frame ht]
        simp [hne]
    size_clock := by
      rcases hclock with hc | ⟨_, _, hc⟩
      · rw [hc, htable, hp.size_clock]
      · rw [hc, htable]
        exact hp.size_clock
    total := by rw [hfree, htable, hp.total] }

lemma lend (hp : p.Sound count hole) (hr : p.residentIn? frame = some (page, h)) :
    (p.lend frame h).2.Sound count hole :=
  hp.congr rfl rfl rfl rfl (.inr ⟨frame, (hp.tracks_iff frame).2 (by simp [hr]), rfl⟩)

lemma release (hp : p.Sound count hole) (h : Handle α) : (p.release h).Sound count hole :=
  hp.congr rfl rfl rfl rfl (.inl rfl)

lemma countMiss (hp : p.Sound count hole) : p.countMiss.Sound count hole :=
  hp.congr rfl rfl rfl rfl (.inl rfl)

lemma fetch (hp : p.Sound count hole) (page : PageId) : (p.fetch page).2.Sound count hole := by
  rw [Pool.fetch]
  cases hl : p.lookup page with
  | none => exact hp
  | some found =>
    obtain ⟨frame, h⟩ := found
    exact (hp.lend (hp.lookup_eq_some_iff.1 hl)).congr rfl rfl rfl rfl (.inl rfl)

end Sound

/-! ## Making room -/

/-- The three ways in which making room can end: with the first empty frame, with no frame because
all pages are pinned, or with the frame of a page that is not. -/
inductive Allocates (p : Pool α) : Option ℕ → Pool α → Prop
  /-- An empty frame is taken from the list. -/
  | free {frame : ℕ} {rest : List ℕ} (hfree : p.free = frame :: rest) :
    Allocates p (some frame) { p with free := rest }
  /-- Nothing can give way, and nothing has changed. -/
  | full (hfree : p.free = [])
    (hpinned : ∀ frame r, p.residentIn? frame = some r → p.isPinned frame = true) :
    Allocates p none p
  /-- A page gives way that is not pinned. -/
  | evict {victim : ℕ} {page : PageId} {h : Handle α} {clock : Clock} (hfree : p.free = [])
    (hresident : p.residentIn? victim = some (page, h)) (hpinned : p.isPinned victim = false)
    (hclock : p.clock.Evicts (fun frame => !p.isPinned frame) victim clock) :
    Allocates p (some victim)
      { p with
        clock := clock
        frames := p.frames.set victim Frame.empty
        table := p.table.erase page }

lemma Sound.allocates (hp : p.Sound count none) : Allocates p p.allocate.1 p.allocate.2 := by
  unfold allocate
  split
  · next frame rest hfree => exact .free hfree
  · next hfree =>
    obtain ⟨hnone, hevict⟩ | ⟨victim, clock, hevict, hev⟩ :=
      Clock.evict_cases hp.valid_clock fun frame => !p.isPinned frame
    · rw [hevict]
      refine .full hfree fun frame r hr => ?_
      have ht := (hp.tracks_iff frame).2 (by simp [hr])
      simpa [Clock.eligible, ht] using hnone frame
    · have hv := hev.eligible
      simp only [Clock.eligible, Bool.and_eq_true, Bool.not_eq_true'] at hv
      obtain ⟨⟨page, h⟩, hr⟩ := Option.isSome_iff_exists.1 ((hp.tracks_iff victim).1 hv.1)
      have hpage : ({ p with clock := clock } : Pool α).pageIn? victim = some page := by
        rw [pageIn?_eq]
        show (p.residentIn? victim).map Prod.fst = _
        rw [hr]
        rfl
      simp only [hevict, hpage]
      exact .evict hfree hr hv.2 hev

namespace Sound

/-- A frame that is taken from the list of empty ones becomes the hole. -/
lemma unlist (hp : p.Sound count none) {rest : List ℕ} (hfree : p.free = frame :: rest) :
    ({ p with free := rest } : Pool α).Sound count (some frame) := by
  have hmem := (hp.mem_free_iff frame).1 (by simp [hfree])
  have hnodup := hp.nodup_free
  rw [hfree, List.nodup_cons] at hnodup
  have htotal := hp.total
  rw [hfree] at htotal
  exact { hp with
    nodup_free := hnodup.2
    mem_free_iff := fun other => by
      show other ∈ rest ↔ other < count ∧ p.residentIn? other = none ∧ _
      have hiff := hp.mem_free_iff other
      rw [hfree, List.mem_cons] at hiff
      constructor
      · intro hrest
        obtain ⟨hlt, hres, -⟩ := hiff.1 (.inr hrest)
        exact ⟨hlt, hres, fun e => hnodup.1 (Option.some.inj e ▸ hrest)⟩
      · rintro ⟨hlt, hres, hne⟩
        rcases hiff.2 ⟨hlt, hres, by simp⟩ with rfl | hrest
        · exact absurd rfl hne
        · exact hrest
    hole_empty := fun hh => Option.some.inj hh ▸ ⟨hmem.1, hmem.2.1⟩
    total := by
      simp only [List.length_cons, Option.toList_none, List.length_nil] at htotal
      simp only [Option.toList_some, List.length_singleton]
      omega }

/-- The hole is added to the list of empty frames. -/
lemma enlist (hp : p.Sound count (some frame)) :
    ({ p with free := frame :: p.free } : Pool α).Sound count none := by
  obtain ⟨hlt, hempty⟩ := hp.hole_empty rfl
  have htotal := hp.total
  exact { hp with
    nodup_free := List.nodup_cons.2
      ⟨fun hmem => ((hp.mem_free_iff frame).1 hmem).2.2 rfl, hp.nodup_free⟩
    mem_free_iff := fun other => by
      show other ∈ frame :: p.free ↔ other < count ∧ p.residentIn? other = none ∧ _
      rw [List.mem_cons, hp.mem_free_iff]
      by_cases hother : other = frame
      · subst hother
        simp [hlt, hempty]
      · have hne : ¬ frame = other := fun e => hother e.symm
        simp [hother, hne]
    hole_empty := fun hh => by cases hh
    total := by
      simp only [Option.toList_some, List.length_singleton] at htotal
      simp only [List.length_cons, Option.toList_none, List.length_nil]
      omega }

/-- The frame of a page becomes the hole, when the clock forgets it. -/
lemma opened (hp : p.Sound count none) (hf : p.table.find? page = some frame) {clock : Clock}
    (hcapacity : clock.capacity = p.clock.capacity) (hvalid : clock.Valid)
    (htracks : ∀ other, clock.tracks other = (p.clock.tracks other && decide (other ≠ frame)))
    (hreferences : ∀ other, (p.clock.references other && decide (other ≠ frame)) = false →
      clock.references other = false)
    (hsize : clock.size = p.clock.size - 1) :
    ({ p with
      clock := clock
      frames := p.frames.set frame Frame.empty
      table := p.table.erase page } : Pool α).Sound count (some frame) := by
  obtain ⟨h, hr⟩ := (hp.find?_iff page frame).1 hf
  have hlt : frame < p.frames.length := lt_of_residentIn? hr
  have hindexed : ({ p with
      clock := clock
      frames := p.frames.set frame Frame.empty
      table := p.table.erase page } : Pool α).Indexed :=
    hp.emptied hf rfl rfl rfl
  have hres := hp.residentIn?_emptied hf (q := { p with
    clock := clock
    frames := p.frames.set frame Frame.empty
    table := p.table.erase page }) rfl
  have herase := Assoc.size_erase hf
  have htotal := hp.total
  exact { hindexed with
    length_frames := by simp [hp.length_frames]
    capacity_clock := hcapacity.trans hp.capacity_clock
    valid_clock := hvalid
    nodup_free := hp.nodup_free
    mem_free_iff := fun other => by
      rw [hres]
      show other ∈ p.free ↔ _
      rw [hp.mem_free_iff]
      by_cases hother : other = frame
      · subst hother
        simp [hr]
      · have hne : ¬ frame = other := fun e => hother e.symm
        simp [hother, hne]
    hole_empty := fun hh => by
      rw [hres, if_pos (Option.some.inj hh).symm]
      exact ⟨Option.some.inj hh ▸ hp.length_frames ▸ hlt, rfl⟩
    tracks_iff := fun other => by
      rw [hres]
      show clock.tracks other = true ↔ _
      rw [htracks, Bool.and_eq_true, hp.tracks_iff]
      by_cases hother : other = frame <;> simp [hother]
    references_untracked := fun other hu => by
      have hu' : clock.tracks other = false := hu
      rw [htracks] at hu'
      apply hreferences
      by_cases hother : other = frame
      · simp [hother]
      · rw [hp.references_untracked other (by simpa [hother] using hu')]
        rfl
    size_clock := by
      show clock.size = (p.table.erase page).size
      rw [hsize, hp.size_clock]
      omega
    total := by
      show p.free.length + (p.table.erase page).size + _ = count
      simp only [Option.toList_none, Option.toList_some, List.length_nil,
        List.length_singleton] at htotal ⊢
      omega }

end Sound

/-- Making room opens a hole, or none if it fails. -/
lemma Allocates.sound {made : Option ℕ} (ha : Allocates p made q) (hp : p.Sound count none) :
    q.Sound count made := by
  cases ha with
  | free hfree => exact hp.unlist hfree
  | full => exact hp
  | @evict victim page h clock hfree hresident hpinned hclock =>
    refine hp.opened ((hp.find?_iff page victim).2 ⟨h, hresident⟩) hclock.capacity
      (hclock.valid hp.valid_clock) hclock.tracks (fun frame hunmarked => ?_) hclock.size
    rcases Nat.lt_or_ge frame p.clock.capacity with hcap | hcap
    · rw [hclock.references frame hcap, hunmarked]
      rfl
    · exact Clock.references_of_le (hclock.capacity ▸ hcap)

namespace Sound

/-! ## Installing -/

/-- A page that is put into the hole fills it. -/
lemma install (hp : p.Sound count (some frame)) (habsent : p.table.find? page = none)
    (content : α) : (p.install frame page content).2.Sound count none := by
  obtain ⟨hlt, hempty⟩ := hp.hole_empty rfl
  have hlen : frame < p.frames.length := hp.length_frames ▸ hlt
  have hcap : frame < p.clock.capacity := hp.capacity_clock ▸ hlt
  have huntracked : p.clock.tracks frame = false := by
    have := hp.tracks_iff frame
    rw [hempty] at this
    simpa using this
  have hres := residentIn?_set (q := (p.install frame page content).2) hlen rfl
  have hindexed : (p.install frame page content).2.Indexed :=
    hp.filled hlen hempty habsent rfl rfl rfl
  have hsize := Assoc.size_insert habsent frame
  have htotal := hp.total
  exact { hindexed with
    length_frames := by simp [Pool.install, hp.length_frames]
    capacity_clock := by
      show (p.clock.insert frame).capacity = count
      rw [Clock.capacity_insert, hp.capacity_clock]
    valid_clock := hp.valid_clock.insert frame
    nodup_free := hp.nodup_free
    mem_free_iff := fun other => by
      rw [hres]
      show other ∈ p.free ↔ _
      rw [hp.mem_free_iff]
      by_cases hother : other = frame
      · simp [hother]
      · have hne : ¬ frame = other := fun e => hother e.symm
        simp [hother, hne]
    hole_empty := fun hh => by cases hh
    tracks_iff := fun other => by
      rw [hres]
      show (p.clock.insert frame).tracks other = true ↔ _
      rw [Clock.tracks_insert hcap, Bool.or_eq_true, hp.tracks_iff]
      by_cases hother : other = frame <;> simp [hother]
    references_untracked := fun other ht => by
      have ht' : (p.clock.insert frame).tracks other = false := ht
      show (p.clock.insert frame).references other = false
      rw [Clock.tracks_insert hcap, Bool.or_eq_false_iff] at ht'
      rw [Clock.references_insert hcap, ht'.1, hp.references_untracked other ht'.2]
      rfl
    size_clock := by
      show (p.clock.insert frame).size = (p.table.insert page frame).size
      rw [Clock.size_insert hcap huntracked, hp.size_clock, hsize]
    total := by
      show p.free.length + (p.table.insert page frame).size + _ = count
      simp only [Option.toList_none, Option.toList_some, List.length_singleton,
        List.length_nil] at htotal ⊢
      omega }

/-- A loaded page is either resident by now, or finds no room, or is put into the room made. -/
lemma accept_of_lookup_none (hp : p.Sound count none) (habsent : p.lookup page = none)
    (content : α) :
    (Allocates p none p ∧ p.accept page content = (.error .poolFull, p)) ∨
      ∃ frame made, Allocates p (some frame) made ∧
        p.accept page content =
          (.ok ⟨made.nextTicket, content⟩, (made.install frame page content).2) := by
  have ha := hp.allocates
  rw [Pool.accept, habsent]
  rcases hmade : p.allocate with ⟨_ | frame, made⟩
  · rw [hmade] at ha
    cases ha with
    | full hfree hpinned => exact .inl ⟨.full hfree hpinned, rfl⟩
  · rw [hmade] at ha
    exact .inr ⟨frame, made, ha, rfl⟩

/-- Making room never makes a page resident. -/
lemma find?_of_allocates {made : Option ℕ} (ha : Allocates p made q)
    (habsent : p.table.find? page = none) : q.table.find? page = none := by
  cases ha with
  | free => exact habsent
  | full => exact habsent
  | evict => simp [habsent]

lemma accept (hp : p.Sound count none) (page : PageId) (content : α) :
    (p.accept page content).2.Sound count none := by
  cases hl : p.lookup page with
  | some found =>
    obtain ⟨frame, h⟩ := found
    rw [Pool.accept, hl]
    exact hp.lend (hp.lookup_eq_some_iff.1 hl)
  | none =>
    rcases hp.accept_of_lookup_none hl content with ⟨_, heq⟩ | ⟨frame, made, ha, heq⟩
    · rw [heq]
      exact hp
    · rw [heq]
      exact (ha.sound hp).install (find?_of_allocates ha (hp.lookup_eq_none_iff.1 hl)) content

/-! ## Discarding -/

/-- A frame that is emptied can be taken next. -/
lemma vacate (hp : p.Sound count none) (hf : p.table.find? page = some frame) :
    (p.vacate page frame).Sound count none := by
  obtain ⟨h, hr⟩ := (hp.find?_iff page frame).1 hf
  have ht : p.clock.tracks frame = true := (hp.tracks_iff frame).2 (by simp [hr])
  exact (hp.opened hf (Clock.capacity_remove _ _) (hp.valid_clock.remove frame)
    (Clock.tracks_remove _ _) (fun other hunmarked => (Clock.references_remove ht other).trans
      hunmarked) (Clock.size_remove ht)).enlist

lemma discardPage (hp : p.Sound count none) (page : PageId) :
    (p.discardPage page).2.Sound count none := by
  unfold Pool.discardPage
  split
  · exact hp
  · next frame hf => exact hp.vacate hf

lemma discardAll (hp : p.Sound count none) (pages : List PageId) :
    (p.discardAll pages).Sound count none := by
  induction pages generalizing p with
  | nil => exact hp
  | cons page pages ih => exact ih (hp.discardPage page)

lemma discardTable (hp : p.Sound count none) (table : TableId) :
    (p.discardTable table).2.Sound count none :=
  hp.discardAll _

lemma clear (hp : p.Sound count none) : p.clear.Sound count none :=
  hp.discardAll _

end Sound

/-! ## What becomes of look-ups -/

lemma lookup_fetch (p : Pool α) (page other : PageId) :
    (p.fetch page).2.lookup other = p.lookup other := by
  rw [fetch]
  cases p.lookup page with
  | none => rfl
  | some found => rfl

lemma Sound.lookup_install (hp : p.Sound count (some frame)) (habsent : p.table.find? page = none)
    (content : α) (other : PageId) :
    (p.install frame page content).2.lookup other =
      if other = page then some (frame, ⟨p.nextTicket, content⟩) else p.lookup other := by
  obtain ⟨hlt, hempty⟩ := hp.hole_empty rfl
  have hq := (hp.install habsent content).toIndexed
  have hres := residentIn?_set (q := (p.install frame page content).2) (hp.length_frames ▸ hlt) rfl
  split
  · next hpage =>
    subst hpage
    rw [hq.lookup_eq_some_iff, hres, if_pos rfl]
  · next hpage =>
    refine hp.lookup_congr hq other fun frame' h' => ?_
    have hpage' : ¬ page = other := fun e => hpage e.symm
    rw [hres]
    split
    · next hframe =>
      subst hframe
      simp [hempty, hpage']
    · rfl

/-- Room comes from the list of empty frames, and then nothing else changes; or from one page that
is not pinned, and then only this page is not found any more. -/
lemma Sound.lookup_allocates (hp : p.Sound count none) (ha : Allocates p (some frame) q) :
    (p.free ≠ [] ∧ ∀ other, q.lookup other = p.lookup other) ∨
      (p.free = [] ∧ ∃ page h, p.lookup page = some (frame, h) ∧ h.ticket ∉ p.out ∧
        ∀ other, q.lookup other = if other = page then none else p.lookup other) := by
  cases ha with
  | free hfree => exact .inl ⟨by simp [hfree], fun _ => rfl⟩
  | @evict _ page h clock hfree hresident hpinned hclock =>
    refine .inr ⟨hfree, page, h, hp.lookup_eq_some_iff.2 hresident, fun hout => ?_, ?_⟩
    · have := (isPinned_iff p frame).2 ⟨page, h, hresident, hout⟩
      rw [hpinned] at this
      cases this
    · exact hp.lookup_emptied ((hp.find?_iff page frame).2 ⟨h, hresident⟩) rfl rfl rfl

lemma Sound.lookup_discardPage (hp : p.Sound count none) (page other : PageId) :
    (p.discardPage page).2.lookup other = if other = page then none else p.lookup other := by
  unfold Pool.discardPage
  split
  · next hf =>
    split
    · next hpage =>
      rw [hpage, hp.lookup_eq_none_iff, hf]
    · rfl
  · next frame hf => exact hp.lookup_emptied (q := p.vacate page frame) hf rfl rfl rfl other

lemma Sound.lookup_discardAll (hp : p.Sound count none) (pages : List PageId) (other : PageId) :
    (p.discardAll pages).lookup other = if other ∈ pages then none else p.lookup other := by
  induction pages generalizing p with
  | nil => simp [Pool.discardAll]
  | cons page pages ih =>
    show ((p.discardPage page).2.discardAll pages).lookup other = _
    rw [ih (hp.discardPage page), hp.lookup_discardPage]
    by_cases h1 : other ∈ pages <;> by_cases h2 : other = page <;> simp [h1, h2]

lemma Sound.mem_keys_iff (hp : p.Sound count hole) (page : PageId) :
    page ∈ p.table.keys ↔ p.lookup page ≠ none := by
  rw [ne_eq, hp.lookup_eq_none_iff, Assoc.find?_eq_none_iff, not_not]

lemma Sound.lookup_discardTable (hp : p.Sound count none) (table : TableId) (other : PageId) :
    (p.discardTable table).2.lookup other =
      if other.table = table then none else p.lookup other := by
  rw [Pool.discardTable, hp.lookup_discardAll]
  by_cases hl : p.lookup other = none
  · simp [hl]
  · have hmem := (hp.mem_keys_iff other).2 hl
    simp [List.mem_filter, hmem]

lemma Sound.lookup_clear (hp : p.Sound count none) (other : PageId) :
    p.clear.lookup other = none := by
  rw [Pool.clear, hp.lookup_discardAll]
  by_cases hl : p.lookup other = none
  · simp [hl]
  · rw [if_pos ((hp.mem_keys_iff other).2 hl)]

/-! ## Handles from before -/

/-- Between `p` and `q` pages may have left the pool, and what has come in has a new ticket. -/
def Renews (p q : Pool α) : Prop :=
  p.nextTicket ≤ q.nextTicket ∧ ∀ frame r, q.residentIn? frame = some r →
    p.residentIn? frame = some r ∨ p.nextTicket ≤ r.2.ticket

lemma Renews.of_frames (hframes : q.frames = p.frames) (hticket : q.nextTicket = p.nextTicket) :
    p.Renews q :=
  ⟨hticket.ge, fun frame _ hr => .inl (residentIn?_congr hframes frame ▸ hr)⟩

lemma Renews.trans {r : Pool α} (h1 : p.Renews q) (h2 : q.Renews r) : p.Renews r := by
  refine ⟨h1.1.trans h2.1, fun frame x hx => ?_⟩
  rcases h2.2 frame x hx with hq | hq
  · exact h1.2 frame x hq
  · exact .inr (h1.1.trans hq)

lemma renews_fetch (p : Pool α) (page : PageId) : p.Renews (p.fetch page).2 := by
  rw [fetch]
  cases p.lookup page with
  | none => exact .of_frames rfl rfl
  | some found => exact .of_frames rfl rfl

lemma Indexed.renews_emptied (hp : p.Indexed) (hf : p.table.find? page = some frame)
    (hframes : q.frames = p.frames.set frame Frame.empty) (hticket : q.nextTicket = p.nextTicket) :
    p.Renews q := by
  refine ⟨hticket.ge, fun other r hr => .inl ?_⟩
  rw [hp.residentIn?_emptied hf hframes] at hr
  split at hr
  · cases hr
  · exact hr

lemma Sound.renews_accept (hp : p.Sound count none) (page : PageId) (content : α) :
    p.Renews (p.accept page content).2 := by
  cases hl : p.lookup page with
  | some found =>
    rw [Pool.accept, hl]
    exact .of_frames rfl rfl
  | none =>
    rcases hp.accept_of_lookup_none hl content with ⟨_, heq⟩ | ⟨frame, made, ha, heq⟩
    · rw [heq]
      exact .of_frames rfl rfl
    · rw [heq]
      have hroom : p.Renews made := by
        cases ha with
        | free hfree => exact .of_frames rfl rfl
        | @evict _ old h clock hfree hresident _ _ =>
          exact hp.renews_emptied ((hp.find?_iff old frame).2 ⟨h, hresident⟩) rfl rfl
      have hlt := ((ha.sound hp).hole_empty rfl).1
      refine hroom.trans ⟨Nat.le_succ _, fun other r hr => ?_⟩
      rw [residentIn?_set ((ha.sound hp).length_frames ▸ hlt) rfl] at hr
      split at hr
      · cases hr
        exact .inr le_rfl
      · exact .inl hr

lemma Sound.renews_discardPage (hp : p.Sound count none) (page : PageId) :
    p.Renews (p.discardPage page).2 := by
  unfold Pool.discardPage
  split
  · exact .of_frames rfl rfl
  · next frame hf => exact hp.renews_emptied (q := p.vacate page frame) hf rfl rfl

lemma Sound.renews_discardAll (hp : p.Sound count none) (pages : List PageId) :
    p.Renews (p.discardAll pages) := by
  induction pages generalizing p with
  | nil => exact .of_frames rfl rfl
  | cons page pages ih => exact (hp.renews_discardPage page).trans (ih (hp.discardPage page))

/-- Discarding pages takes no handles back. -/
lemma out_discardAll (p : Pool α) (pages : List PageId) : (p.discardAll pages).out = p.out := by
  induction pages generalizing p with
  | nil => rfl
  | cons page pages ih =>
    refine (ih (p.discardPage page).2).trans ?_
    rw [Pool.discardPage]
    split <;> rfl

end RowStore.Pool
