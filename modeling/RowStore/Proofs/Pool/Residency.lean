import RowStore.Proofs.Pool.Journal
import RowStore.Proofs.Pool.Pinning

/-!
# Installations that stand

To its clients a pool is a map from pages to handles, and the journal of a run says which map: a
page has the handle under which it was last installed, unless it has given way or was discarded
since (`Standing`).  Frames, page table, clock and list of empty frames do not occur in this.

This file is about one step.  An entry of a journal says what its step did to the resident pages, to
the counters and to the tickets (`Desk.Effect`), and `Desk.Sound.effect` is the proof, with one case
for each kind of step.  A page that a loader has brought is the case with the most to say, since
another page may have given way to it (`Desk.Accepts`).
-/

namespace RowStore

variable {α : Type}

/-! ## Installations that stand -/

namespace Event

/-- The page is installed by the event, or leaves the pool. -/
def Touches (page : PageId) : Event α → Prop
  | installed other _ evicted => other = page ∨ evicted = some page
  | discarded other => other = page
  | tableDiscarded table => table = page.table
  | cleared => True
  | _ => False

/-- A request with a loader begins. -/
def isLoad : Event α → Bool
  | hit _ _ | missed _ => true
  | _ => false

/-- A loader begins to run. -/
def isMiss : Event α → Bool
  | missed _ => true
  | _ => false

/-- A request without a loader is answered with a page. -/
def isServed : Event α → Bool
  | fetched _ answer => answer.isSome
  | _ => false

/-- The ticket of the installation that the event is. -/
def ticket? : Event α → Option ℕ
  | installed _ h _ => some h.ticket
  | _ => none

end Event

/-- The last thing that happened to the page is that it was installed under the handle: it has not
been installed again, given way or been discarded since. -/
def Standing (past : List (Event α)) (page : PageId) (h : Handle α) : Prop :=
  ∃ before evicted since, past = before ++ .installed page h evicted :: since ∧
    ∀ e ∈ since, ¬ e.Touches page

lemma not_standing_nil (page : PageId) (h : Handle α) : ¬ Standing [] page h := by
  rintro ⟨before, evicted, since, heq, -⟩
  exact List.append_ne_nil_of_right_ne_nil before (List.cons_ne_nil _ _) heq.symm

/-- After one more event a page stands if the event is its installation, or if it stood before and
the event is about other pages. -/
lemma standing_concat {past : List (Event α)} {e : Event α} {page : PageId} {h : Handle α} :
    Standing (past ++ [e]) page h ↔
      (∃ evicted, e = .installed page h evicted) ∨ Standing past page h ∧ ¬ e.Touches page := by
  constructor
  · rintro ⟨before, evicted, since, heq, hsince⟩
    rcases List.eq_nil_or_concat since with rfl | ⟨since, e', rfl⟩
    · exact .inl ⟨evicted, (List.append_inj' heq rfl).2 |> List.singleton_inj.1⟩
    · rw [List.concat_eq_append, ← List.cons_append, ← List.append_assoc] at heq
      obtain ⟨rfl, hlast⟩ := List.append_inj' heq rfl
      obtain rfl := List.singleton_inj.1 hlast
      refine .inr ⟨⟨before, evicted, since, rfl, fun e' he' => hsince e' ?_⟩, hsince e ?_⟩
      · simp [he']
      · simp
  · rintro (⟨evicted, rfl⟩ | ⟨⟨before, evicted, since, rfl, hsince⟩, he⟩)
    · exact ⟨past, evicted, [], rfl, fun _ h => absurd h List.not_mem_nil⟩
    · refine ⟨before, evicted, since ++ [e], by simp, fun e' he' => ?_⟩
      rcases List.mem_append.1 he' with he' | he'
      · exact hsince e' he'
      · exact List.mem_singleton.1 he' ▸ he

/-! ## What the operations leave alone -/

namespace Pool

/-- Operations that discard pages count nothing and give no tickets. -/
lemma counters_discardAll (p : Pool α) (pages : List PageId) :
    (p.discardAll pages).hits = p.hits ∧ (p.discardAll pages).misses = p.misses ∧
      (p.discardAll pages).nextTicket = p.nextTicket := by
  induction pages generalizing p with
  | nil => exact ⟨rfl, rfl, rfl⟩
  | cons page pages ih =>
    have hpage : (p.discardPage page).2.hits = p.hits ∧ (p.discardPage page).2.misses = p.misses ∧
        (p.discardPage page).2.nextTicket = p.nextTicket := by
      unfold discardPage
      split <;> exact ⟨rfl, rfl, rfl⟩
    obtain ⟨hhits, hmisses, hticket⟩ := ih (p.discardPage page).2
    exact ⟨hhits.trans hpage.1, hmisses.trans hpage.2.1, hticket.trans hpage.2.2⟩

/-- Making room counts nothing and gives no tickets. -/
lemma Allocates.counters {p q : Pool α} {made : Option ℕ} (ha : Allocates p made q) :
    q.hits = p.hits ∧ q.misses = p.misses ∧ q.nextTicket = p.nextTicket := by
  cases ha <;> exact ⟨rfl, rfl, rfl⟩

/-- When room is made, the page that gives way is not found any more, and all others are. -/
lemma Sound.lookup_of_allocates {p q : Pool α} {count frame : ℕ} (hp : p.Sound count none)
    (ha : Allocates p (some frame) q) (other : PageId) :
    q.lookup other = if p.pageIn? frame = some other then none else p.lookup other := by
  cases ha with
  | free hfree =>
    have hempty : p.residentIn? frame = none :=
      ((hp.mem_free_iff frame).1 (by simp [hfree])).2.1
    rw [pageIn?_eq, hempty, Option.map_none, if_neg (Option.some_ne_none other).symm]
    rfl
  | @evict _ page h clock hfree hresident hpinned hclock =>
    have hpage : p.pageIn? frame = some page := by
      rw [pageIn?_eq, hresident, Option.map_some]
    have htable : p.table.find? page = some frame := (hp.find?_iff page frame).2 ⟨h, hresident⟩
    have hsame : some page = some other ↔ other = page := by rw [Option.some.injEq, eq_comm]
    rw [hpage, if_congr hsame rfl rfl]
    refine hp.lookup_emptied htable ?_ ?_ ?_ other
    all_goals rfl

end Pool

namespace Desk

/-- Keeping a handle, or giving it back, only concerns the handles that are out. -/
lemma pool_keep (d : Desk α) (name : Option String) (h : Handle α) :
    ∃ out, (d.keep name h).pool = { d.pool with out := out } := by
  cases name with
  | none => exact ⟨_, rfl⟩
  | some name =>
    rw [keep, release]
    split <;> exact ⟨_, rfl⟩

lemma pool_release (d : Desk α) (name : String) :
    ∃ out, (d.release name).2.pool = { d.pool with out := out } := by
  unfold release
  split <;> exact ⟨_, rfl⟩

/-! ## Requests -/

lemma fetch_of_absent {d : Desk α} {page : PageId} (h : d.pool.lookup page = none)
    (name : Option String) : d.fetch page name = (none, d) := by
  rw [fetch, Pool.fetch, h]

/-- A request for a resident page gives its handle, counts as a hit and leaves all pages where they
are. -/
lemma fetch_of_resident {d : Desk α} {page : PageId} {frame : ℕ} {h : Handle α}
    (hl : d.pool.lookup page = some (frame, h)) (name : Option String) :
    ∃ d', d.fetch page name = (some h, d') ∧ (∀ other, d'.pool.lookup other = d.pool.lookup other) ∧
      d'.pool.hits = d.pool.hits + 1 ∧ d'.pool.misses = d.pool.misses ∧
      d'.pool.nextTicket = d.pool.nextTicket := by
  have hfetch : d.pool.fetch page = (some h, (d.pool.fetch page).2) := by
    rw [Pool.fetch, hl]
    rfl
  obtain ⟨out, hkeep⟩ := Desk.pool_keep { d with pool := (d.pool.fetch page).2 } name h
  refine ⟨_, by rw [fetch, hfetch], fun other => ?_, ?_⟩
  · rw [lookup_keep]
    exact Pool.lookup_fetch d.pool page other
  · rw [hkeep, Pool.fetch, hl]
    exact ⟨rfl, rfl, rfl⟩

/-- How admitting a page may end, what the journal says of it, and what it does to the pool. -/
inductive Accepts (d : Desk α) (page : PageId) (content : α) :
    Except Error (Handle α) → Event α → Desk α → Prop
  /-- The page is resident already, and the new copy is dropped. -/
  | found {frame : ℕ} {h : Handle α} {after : Desk α}
      (hresident : d.pool.lookup page = some (frame, h))
      (hlookup : ∀ other, after.pool.lookup other = d.pool.lookup other)
      (hhits : after.pool.hits = d.pool.hits) (hmisses : after.pool.misses = d.pool.misses)
      (hticket : after.pool.nextTicket = d.pool.nextTicket) :
    Accepts d page content (.ok h) (.found page h) after
  /-- There is no room, and nothing has changed. -/
  | refused (habsent : d.pool.lookup page = none) :
    Accepts d page content (.error .poolFull) (.refused page) d
  /-- The page is installed with a new ticket. -/
  | installed {frame : ℕ} {after : Desk α} (habsent : d.pool.lookup page = none)
      (hlookup : ∀ other, after.pool.lookup other =
        if other = page then some (frame, ⟨d.pool.nextTicket, content⟩)
        else if d.pool.evicted? = some other then none else d.pool.lookup other)
      (hhits : after.pool.hits = d.pool.hits) (hmisses : after.pool.misses = d.pool.misses)
      (hticket : after.pool.nextTicket = d.pool.nextTicket + 1) :
    Accepts d page content (.ok ⟨d.pool.nextTicket, content⟩)
      (.installed page ⟨d.pool.nextTicket, content⟩ d.pool.evicted?) after

lemma accepts_of_resident {d : Desk α} {page : PageId} {frame : ℕ} {h : Handle α}
    (hl : d.pool.lookup page = some (frame, h)) (name : Option String) (content : α) :
    d.Accepts page content (d.accept page name content).1 (.found page h)
      (d.accept page name content).2 := by
  have hpool : d.pool.accept page content = (.ok h, (d.pool.lend frame h).2) := by
    rw [Pool.accept, hl]
    rfl
  obtain ⟨out, hkeep⟩ := Desk.pool_keep ⟨(d.pool.lend frame h).2, d.kept⟩ name h
  simp only [Desk.accept, hpool]
  apply Accepts.found hl
  · intro other
    rw [lookup_keep]
    rfl
  all_goals rw [hkeep]; rfl

/-- The page is put into the frame that was made free for it. -/
lemma Sound.accepts_of_allocate {d : Desk α} {count : ℕ} (hd : d.Sound count []) {page : PageId}
    (hl : d.pool.lookup page = none) {frame : ℕ} {made : Pool α}
    (hmade : d.pool.allocate = (some frame, made)) (name : Option String) (content : α) :
    d.Accepts page content (d.accept page name content).1
      (.installed page ⟨d.pool.nextTicket, content⟩ d.pool.evicted?)
      (d.accept page name content).2 := by
  have ha := hd.pool.allocates
  rw [hmade] at ha
  obtain ⟨hhits, hmisses, hticket⟩ := ha.counters
  have hpool : d.pool.accept page content =
      (.ok ⟨d.pool.nextTicket, content⟩, (made.install frame page content).2) := by
    simp only [Pool.accept, hl, hmade, ← hticket]
    rfl
  have hevicted : d.pool.evicted? = d.pool.pageIn? frame := by
    rw [Pool.evicted?, hmade]
    rfl
  have hfind := Pool.Sound.find?_of_allocates ha (hd.pool.lookup_eq_none_iff.1 hl)
  obtain ⟨out, hkeep⟩ := Desk.pool_keep ⟨(made.install frame page content).2, d.kept⟩ name
    ⟨d.pool.nextTicket, content⟩
  simp only [Desk.accept, hpool]
  apply Accepts.installed hl
  · intro other
    rw [lookup_keep, hevicted, ← hd.pool.lookup_of_allocates ha, ← hticket]
    exact (ha.sound hd.pool).lookup_install hfind content other
  all_goals rw [hkeep]
  · exact hhits
  · exact hmisses
  · exact congrArg (· + 1) hticket

lemma Sound.accepts {d : Desk α} {count : ℕ} (hd : d.Sound count []) (page : PageId)
    (name : Option String) (content : α) :
    d.Accepts page content (d.accept page name content).1 (d.admission page content)
      (d.accept page name content).2 := by
  rcases hl : d.pool.lookup page with _ | ⟨frame, h⟩
  · have ha := hd.pool.allocates
    rcases hmade : d.pool.allocate with ⟨_ | frame, made⟩
    · have hpool : d.pool.accept page content = (.error .poolFull, made) := by
        simp only [Pool.accept, hl, hmade]
      have hsame : made = d.pool := by
        rw [hmade] at ha
        cases ha
        rfl
      simp only [admission, hl, Desk.accept, hpool, hsame]
      exact .refused hl
    · have hanswer : (d.pool.accept page content).1 = .ok ⟨d.pool.nextTicket, content⟩ := by
        rw [hmade] at ha
        simp only [Pool.accept, hl, hmade, ← ha.counters.2.2]
        rfl
      simp only [admission, hl, hanswer]
      exact hd.accepts_of_allocate hl hmade name content
  · simp only [admission, hl]
    exact accepts_of_resident hl name content

/-! ## Steps -/

/-- A page is resident under a handle. -/
def Holds (d : Desk α) (page : PageId) (h : Handle α) : Prop :=
  ∃ frame, d.pool.lookup page = some (frame, h)

/-- A step does what its event says to the resident pages, the counters and the tickets. -/
structure Effect (d : Desk α) (e : Event α) (d' : Desk α) : Prop where
  holds_iff : ∀ page h, d'.Holds page h ↔
    (∃ evicted, e = .installed page h evicted) ∨ d.Holds page h ∧ ¬ e.Touches page
  requests : d'.pool.hits + d'.pool.misses = d.pool.hits + d.pool.misses +
    [e].countP Event.isLoad + [e].countP Event.isServed
  misses : d'.pool.misses = d.pool.misses + [e].countP Event.isMiss
  range_nextTicket : List.range d'.pool.nextTicket =
    List.range d.pool.nextTicket ++ [e].filterMap Event.ticket?

/-- An event that is no installation only takes pages out. -/
lemma holds_iff_of_lookup {d d' : Desk α} {e : Event α} (hticket : e.ticket? = none)
    (hgone : ∀ page, e.Touches page → d'.pool.lookup page = none)
    (hstays : ∀ page, ¬ e.Touches page → d'.pool.lookup page = d.pool.lookup page)
    (page : PageId) (h : Handle α) : d'.Holds page h ↔
      (∃ evicted, e = .installed page h evicted) ∨ d.Holds page h ∧ ¬ e.Touches page := by
  have hnew : ¬ ∃ evicted, e = .installed page h evicted := by
    rintro ⟨evicted, rfl⟩
    cases hticket
  rw [or_iff_right hnew, Holds, Holds]
  by_cases htouches : e.Touches page
  · simp [hgone page htouches, htouches]
  · simp [hstays page htouches, htouches]

/-- An event that is about no page leaves all pages where they are. -/
lemma holds_iff_of_quiet {d d' : Desk α} {e : Event α} (hticket : e.ticket? = none)
    (hquiet : ∀ page, ¬ e.Touches page)
    (hsame : ∀ page, d'.pool.lookup page = d.pool.lookup page) (page : PageId) (h : Handle α) :
    d'.Holds page h ↔
      (∃ evicted, e = .installed page h evicted) ∨ d.Holds page h ∧ ¬ e.Touches page :=
  holds_iff_of_lookup hticket (fun page hp => absurd hp (hquiet page)) (fun page _ => hsame page)
    page h

namespace Sound

variable {d d' : Desk α} {count : ℕ}

lemma effect_fetched (d : Desk α) (page : PageId) (name : Option String) :
    d.Effect (.fetched page (d.fetch page name).1) (d.fetch page name).2 := by
  rcases hl : d.pool.lookup page with _ | ⟨frame, h⟩
  · rw [fetch_of_absent hl]
    exact ⟨holds_iff_of_quiet rfl (fun _ => id) fun _ => rfl, rfl, rfl, (List.append_nil _).symm⟩
  · obtain ⟨d', heq, hsame, hhits, hmisses, hticket⟩ := fetch_of_resident hl name
    rw [heq]
    refine ⟨holds_iff_of_quiet rfl (fun _ => id) hsame, ?_, hmisses, ?_⟩
    · rw [hhits, hmisses]
      exact Nat.add_right_comm _ _ _
    · rw [hticket]
      exact (List.append_nil _).symm

lemma effect_hit {page : PageId} {name : Option String} {h : Handle α}
    (heq : d.fetch page name = (some h, d')) : d.Effect (.hit page h) d' := by
  have heffect := effect_fetched d page name
  rw [heq] at heffect
  refine ⟨holds_iff_of_quiet rfl (fun _ => id) fun other => ?_, heffect.requests, heffect.misses,
    heffect.range_nextTicket⟩
  rcases hl : d.pool.lookup page with _ | ⟨frame, h'⟩
  · rw [fetch_of_absent hl] at heq
    cases heq
  · obtain ⟨d'', heq', hsame, -⟩ := fetch_of_resident hl name
    obtain ⟨-, rfl⟩ := Prod.mk.inj (heq'.symm.trans heq)
    exact hsame other

lemma eq_of_fetch_eq_none {page : PageId} {name : Option String}
    (heq : d.fetch page name = (none, d')) : d' = d ∧ d.pool.lookup page = none := by
  rcases hl : d.pool.lookup page with _ | ⟨frame, h⟩
  · rw [fetch_of_absent hl] at heq
    exact ⟨(Prod.mk.inj heq).2.symm, rfl⟩
  · obtain ⟨d'', heq', -⟩ := fetch_of_resident hl name
    rw [heq'] at heq
    cases heq

lemma effect_missed (d : Desk α) (page : PageId) : d.Effect (.missed page) d.countMiss where
  holds_iff := holds_iff_of_quiet rfl (fun _ => id) fun _ => rfl
  requests := rfl
  misses := rfl
  range_nextTicket := (List.append_nil _).symm

lemma effect_accepts {page : PageId} {content : α} {answer : Except Error (Handle α)}
    {e : Event α} (ha : d.Accepts page content answer e d') : d.Effect e d' := by
  cases ha with
  | found hresident hlookup hhits hmisses hticket =>
    refine ⟨holds_iff_of_quiet rfl (fun _ => id) hlookup, ?_, hmisses, ?_⟩
    · rw [hhits, hmisses]
      rfl
    · rw [hticket]
      exact (List.append_nil _).symm
  | refused habsent =>
    exact ⟨holds_iff_of_quiet rfl (fun _ => id) fun _ => rfl, rfl, rfl, (List.append_nil _).symm⟩
  | installed habsent hlookup hhits hmisses hticket =>
    refine ⟨fun other k => ?_, ?_, hmisses, ?_⟩
    · rw [Holds, hlookup]
      by_cases hpage : other = page
      · subst hpage
        simp [Event.Touches, eq_comm]
      · have hpage' : ¬ page = other := fun h => hpage h.symm
        by_cases hevicted : d.pool.evicted? = some other
        · simp [hpage, hpage', hevicted, Event.Touches]
        · simp [hpage, hpage', hevicted, Event.Touches, Holds]
    · rw [hhits, hmisses]
      rfl
    · rw [hticket, List.range_succ]
      rfl

lemma effect_released (d : Desk α) (name : String) :
    d.Effect (.released name) (d.release name).2 := by
  obtain ⟨out, hpool⟩ := d.pool_release name
  refine ⟨holds_iff_of_quiet rfl (fun _ => id) fun page => ?_, ?_, ?_, ?_⟩ <;> rw [hpool]
  · rfl
  · rfl
  · rfl
  · exact (List.append_nil _).symm

/-- Pages are discarded, which are those that the event is about. -/
lemma effect_discardAll {e : Event α} (hd : d.Sound count []) (pages : List PageId)
    (hquiet : e.isLoad = false ∧ e.isServed = false ∧ e.isMiss = false ∧ e.ticket? = none)
    (htouched : ∀ page ∈ pages, e.Touches page)
    (hall : ∀ page, e.Touches page → d.pool.lookup page ≠ none → page ∈ pages) :
    d.Effect e { d with pool := d.pool.discardAll pages } := by
  obtain ⟨hload, hserved, hmiss, hticket⟩ := hquiet
  obtain ⟨hhits, hmisses, hnext⟩ := d.pool.counters_discardAll pages
  refine ⟨holds_iff_of_lookup hticket (fun page ht => ?_) (fun page ht => ?_), ?_, ?_, ?_⟩
  · rw [hd.pool.lookup_discardAll, ite_eq_left_iff]
    exact fun hout => not_not.1 fun hne => hout (hall page ht hne)
  · rw [hd.pool.lookup_discardAll, if_neg]
    exact fun hmem => ht (htouched page hmem)
  · show (d.pool.discardAll pages).hits + (d.pool.discardAll pages).misses = _
    simp [hhits, hmisses, hload, hserved]
  · show (d.pool.discardAll pages).misses = _
    simp [hmisses, hmiss]
  · show List.range (d.pool.discardAll pages).nextTicket = _
    simp [hnext, hticket]

lemma effect_discarded (hd : d.Sound count []) (page : PageId) :
    d.Effect (.discarded page) (d.discardPage page).2 :=
  effect_discardAll hd [page] ⟨rfl, rfl, rfl, rfl⟩
    (fun _ hmem => (List.mem_singleton.1 hmem).symm) (fun _ ht _ => List.mem_singleton.2 ht.symm)

lemma effect_tableDiscarded (hd : d.Sound count []) (table : TableId) :
    d.Effect (.tableDiscarded table) (d.discardTable table).2 := by
  apply effect_discardAll hd _ ⟨rfl, rfl, rfl, rfl⟩
  · intro page hmem
    exact (of_decide_eq_true (List.mem_filter.1 hmem).2).symm
  · intro page ht hne
    exact List.mem_filter.2 ⟨(hd.pool.mem_keys_iff page).2 hne, decide_eq_true ht.symm⟩

lemma effect_cleared (hd : d.Sound count []) : d.Effect .cleared d.clear :=
  effect_discardAll hd _ ⟨rfl, rfl, rfl, rfl⟩ (fun _ _ => trivial)
    (fun page _ hne => (hd.pool.mem_keys_iff page).2 hne)

/-- **Every step keeps the desk sound and does what its event says.** -/
lemma effect {e : Event α} (hd : d.Sound count []) (hstep : d.Step e d') :
    d'.Sound count [] ∧ d.Effect e d' := by
  cases hstep with
  | fetched page name => exact ⟨hd.fetch page name, effect_fetched d page name⟩
  | @hit _ page name h heq =>
    have hsound := hd.fetch page name
    rw [heq] at hsound
    exact ⟨hsound, effect_hit heq⟩
  | @missed d' page name heq =>
    rw [(eq_of_fetch_eq_none heq).1]
    exact ⟨hd.countMiss, effect_missed d page⟩
  | failed page cause =>
    refine ⟨hd, holds_iff_of_quiet rfl (fun _ => id) fun _ => rfl, rfl, rfl, ?_⟩
    exact (List.append_nil _).symm
  | admitted page name content =>
    exact ⟨hd.accept page name content, effect_accepts (hd.accepts page name content)⟩
  | released name => exact ⟨hd.release name, effect_released d name⟩
  | discarded page => exact ⟨hd.discardPage page, hd.effect_discarded page⟩
  | tableDiscarded table => exact ⟨hd.discardTable table, hd.effect_tableDiscarded table⟩
  | cleared => exact ⟨hd.clear, hd.effect_cleared⟩

end Sound

end Desk

end RowStore
