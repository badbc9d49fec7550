import RowStore.Proofs.Pool.Residency

/-!
# The journal determines the answers

`Desk.Agrees` says that a desk and a journal fit together: what is resident is what stands, every
installation has a ticket of its own, and the counters count what the journal tells.  Every step
keeps this, so it holds at every moment of every run, also while loaders run.

Hence the answer to any call at any moment can be read off the journal so far (`Desk.Follows`).  A
request with a loader has five ways to end (`Desk.Loads`); which one it takes is a question of what
stands when it is made, of how the loader ends, and of what stands then.  The main statement is
`Script.follows_moment`.
-/

namespace RowStore

variable {α : Type}

/-- What the journal of a run tells, without the desks. -/
def Script.events (s : Script α) (d : Desk α) : List (Event α) := (s.journal d).map Prod.fst

namespace Desk

/-! ## Agreement -/

/-- A desk is as the journal so far says. -/
structure Agrees (d : Desk α) (past : List (Event α)) (count : ℕ) : Prop where
  sound : d.Sound count []
  holds_iff : ∀ page h, d.Holds page h ↔ Standing past page h
  requests : d.pool.hits + d.pool.misses = past.countP Event.isLoad + past.countP Event.isServed
  misses : d.pool.misses = past.countP Event.isMiss
  range_nextTicket : List.range d.pool.nextTicket = past.filterMap Event.ticket?

namespace Agrees

variable {d d' : Desk α} {past : List (Event α)} {count : ℕ} {page : PageId}

lemma ofFrames (count : ℕ) : (ofFrames count : Desk α).Agrees [] count where
  sound := .ofFrames count
  holds_iff page h := by
    refine iff_of_false ?_ (not_standing_nil page h)
    rintro ⟨frame, hl⟩
    cases hl
  requests := rfl
  misses := rfl
  range_nextTicket := rfl

/-- **A step keeps the agreement.** -/
lemma step {e : Event α} (ha : d.Agrees past count) (hstep : d.Step e d') :
    d'.Agrees (past ++ [e]) count := by
  obtain ⟨hsound, heffect⟩ := ha.sound.effect hstep
  refine ⟨hsound, fun page h => ?_, ?_, ?_, ?_⟩
  · rw [heffect.holds_iff, standing_concat, ha.holds_iff]
  · rw [heffect.requests, ha.requests, List.countP_append, List.countP_append]
    omega
  · rw [heffect.misses, ha.misses, List.countP_append]
  · rw [heffect.range_nextTicket, ha.range_nextTicket, List.filterMap_append]

lemma path {entries : List (Event α × Desk α)} (ha : d.Agrees past count)
    (hpath : d.Path entries d') : d'.Agrees (past ++ entries.map Prod.fst) count := by
  induction hpath generalizing past with
  | nil => simpa using ha
  | cons hstep _ ih => simpa using ih (ha.step hstep)

lemma not_standing_iff (ha : d.Agrees past count) :
    (∀ h, ¬ Standing past page h) ↔ d.pool.lookup page = none := by
  simp only [← ha.holds_iff, Holds, Option.eq_none_iff_forall_ne_some, not_exists, Prod.forall]
  exact forall_comm

lemma exists_standing_iff (ha : d.Agrees past count) :
    (∃ h, Standing past page h) ↔ page ∈ d.pool.table.keys := by
  rw [ha.sound.pool.mem_keys_iff, ne_eq, ← ha.not_standing_iff]
  push Not
  rfl

end Agrees

lemma fetch_eq_some_iff (d : Desk α) (page : PageId) (name : Option String) (h : Handle α) :
    (d.fetch page name).1 = some h ↔ d.Holds page h := by
  rw [Holds]
  rcases hl : d.pool.lookup page with _ | ⟨frame, k⟩
  · simp [fetch_of_absent hl]
  · obtain ⟨after, hfetch, -⟩ := fetch_of_resident hl name
    simp [hfetch]

/-! ## Requests with a loader -/

/-- How a request with a loader may end, with which answer, on which desk and with which events,
when it is made on the desk `d` after what is `past`. -/
inductive Loads (d : Desk α) (past : List (Event α)) (page : PageId) (name : Option String)
    (loader : Script α) : Except Error (Handle α) → Desk α → List (Event α) → Prop
  /-- The page stands: its handle is given as to a request without a loader, and the loader does not
  run. -/
  | hit {h : Handle α} {after : Desk α} (hstands : Standing past page h)
      (hfetch : d.fetch page name = (some h, after))
      (hsame : ∀ other k, after.Holds other k ↔ d.Holds other k) :
    Loads d past page name loader (.ok h) after [.hit page h]
  /-- The loader runs and fails: what it has done itself is all that is done. -/
  | failed {cause : Error} {after : Desk α} (habsent : ∀ h, ¬ Standing past page h)
      (hrun : loader.run d.countMiss = (.error cause, after)) :
    Loads d past page name loader (.error cause) after
      (.missed page :: loader.events d.countMiss ++ [.failed page cause])
  /-- The loader runs, and the page stands when it is done: its handle is given, and what the loader
  has brought is dropped. -/
  | found {content : α} {during after : Desk α} {h : Handle α}
      (habsent : ∀ h, ¬ Standing past page h)
      (hrun : loader.run d.countMiss = (.ok content, during))
      (hstands : Standing (past ++ .missed page :: loader.events d.countMiss) page h)
      (hsame : ∀ other k, after.Holds other k ↔ during.Holds other k) :
    Loads d past page name loader (.ok h) after
      (.missed page :: loader.events d.countMiss ++ [.found page h])
  /-- The loader runs, and the page does not stand when it is done: what it has brought is installed
  under a ticket that no installation had before, and at most one page gives way. -/
  | installed {content : α} {ticket : ℕ} {evicted : Option PageId} {during after : Desk α}
      (habsent : ∀ h, ¬ Standing past page h)
      (hrun : loader.run d.countMiss = (.ok content, during))
      (hstill : ∀ h, ¬ Standing (past ++ .missed page :: loader.events d.countMiss) page h)
      (hnew : ticket ∉
        (past ++ .missed page :: loader.events d.countMiss).filterMap Event.ticket?)
      (hholds : ∀ other k, after.Holds other k ↔ other = page ∧ k = ⟨ticket, content⟩ ∨
        other ≠ page ∧ evicted ≠ some other ∧ during.Holds other k) :
    Loads d past page name loader (.ok ⟨ticket, content⟩) after
      (.missed page :: loader.events d.countMiss ++ [.installed page ⟨ticket, content⟩ evicted])
  /-- The loader runs, the page does not stand when it is done, and there is no room for it. -/
  | refused {content : α} {after : Desk α} (habsent : ∀ h, ¬ Standing past page h)
      (hrun : loader.run d.countMiss = (.ok content, after))
      (hstill : ∀ h, ¬ Standing (past ++ .missed page :: loader.events d.countMiss) page h) :
    Loads d past page name loader (.error .poolFull) after
      (.missed page :: loader.events d.countMiss ++ [.refused page])

/-- The events of a request with a loader. -/
def loadEvents (d : Desk α) (page : PageId) (name : Option String) (loader : Script α) :
    List (Event α) :=
  (d.loadJournal page name loader.run loader.journal).map Prod.fst

/-- A request for a page that is not resident is its loader, and then what that brings about. -/
lemma load_eq_of_absent {d : Desk α} {page : PageId} (h : d.pool.lookup page = none)
    (name : Option String) (loader : Desk α → Except Error α × Desk α) :
    d.load page name loader =
      match loader d.countMiss with
      | (.error e, d) => (.error e, d)
      | (.ok content, d) => d.accept page name content := by
  rw [Desk.load, fetch_of_absent h]
  rfl

lemma loadEvents_of_absent {d : Desk α} {page : PageId} (h : d.pool.lookup page = none)
    (name : Option String) (loader : Script α) :
    d.loadEvents page name loader = .missed page :: loader.events d.countMiss ++
      match loader.run d.countMiss with
      | (.error e, _) => [.failed page e]
      | (.ok content, d) => [d.admission page content] := by
  rw [loadEvents, loadJournal, fetch_of_absent h]
  show List.map Prod.fst ((_, d.countMiss) :: loader.journal d.countMiss ++ _) = _
  rw [List.map_append]
  rcases loader.run d.countMiss with ⟨_ | _, _⟩ <;> rfl

namespace Agrees

variable {d during : Desk α} {past : List (Event α)} {count : ℕ} {page : PageId}

lemma load (ha : d.Agrees past count) (page : PageId) (name : Option String) (loader : Script α) :
    (d.load page name loader.run).2.Agrees (past ++ d.loadEvents page name loader) count :=
  ha.path (d.path_loadJournal page name loader.path_journal)

/-- After a miss and the run of a loader, the journal goes on with both. -/
lemma missed (ha : d.Agrees past count) (habsent : d.pool.lookup page = none) (loader : Script α) :
    (loader.run d.countMiss).2.Agrees (past ++ .missed page :: loader.events d.countMiss) count :=
  ha.path (.cons (.missed (fetch_of_absent habsent none)) (loader.path_journal d.countMiss))

/-- What comes of a page that a loader has brought is one of the last three ways to end. -/
lemma loads_of_accepts {name : Option String} {loader : Script α} {content : α}
    {answer : Except Error (Handle α)} {e : Event α} {after : Desk α}
    (habsent : ∀ h, ¬ Standing past page h)
    (hrun : loader.run d.countMiss = (.ok content, during))
    (hduring : during.Agrees (past ++ .missed page :: loader.events d.countMiss) count)
    (haccepts : during.Accepts page content answer e after) :
    d.Loads past page name loader answer after
      (.missed page :: loader.events d.countMiss ++ [e]) := by
  cases haccepts with
  | @found frame h after hresident hlookup =>
    have hstands := (hduring.holds_iff page h).1 ⟨frame, hresident⟩
    exact .found habsent hrun hstands fun other k => by simp only [Holds, hlookup]
  | refused hnone => exact .refused habsent hrun (hduring.not_standing_iff.2 hnone)
  | installed hnone hlookup =>
    refine .installed habsent hrun (hduring.not_standing_iff.2 hnone) ?_ fun other k => ?_
    · rw [← hduring.range_nextTicket]
      exact List.not_mem_range_self
    · rw [Holds, hlookup]
      by_cases hpage : other = page
      · simp [hpage, eq_comm]
      · by_cases hevicted : during.pool.evicted? = some other <;> simp [hpage, hevicted, Holds]

/-- A request with a loader ends in one of the five ways. -/
lemma loads (ha : d.Agrees past count) (page : PageId) (name : Option String)
    (loader : Script α) :
    d.Loads past page name loader (d.load page name loader.run).1 (d.load page name loader.run).2
      (d.loadEvents page name loader) := by
  rcases hl : d.pool.lookup page with _ | ⟨frame, h⟩
  · have habsent := ha.not_standing_iff.2 hl
    have hduring := ha.missed hl loader
    rw [load_eq_of_absent hl, loadEvents_of_absent hl]
    rcases hrun : loader.run d.countMiss with ⟨cause | content, during⟩
    · exact .failed habsent hrun
    · rw [hrun] at hduring
      exact loads_of_accepts habsent hrun hduring (hduring.sound.accepts page name content)
  · obtain ⟨after, hfetch, hsame, -⟩ := fetch_of_resident hl name
    rw [Desk.load, loadEvents, loadJournal, hfetch]
    have hstands := (ha.holds_iff page h).1 ⟨frame, hl⟩
    exact .hit hstands hfetch fun other k => by simp only [Holds, hsame]

end Agrees

/-- A request that succeeds gives the handle of the page as it is resident then. -/
lemma Loads.holds {d after : Desk α} {past events : List (Event α)} {page : PageId}
    {name : Option String} {loader : Script α} {count : ℕ} {h : Handle α}
    (hloads : d.Loads past page name loader (.ok h) after events)
    (ha : d.Agrees past count) : after.Holds page h := by
  cases hloads with
  | hit hstands hfetch hsame => exact (hsame page h).2 ((ha.holds_iff page h).2 hstands)
  | found habsent hrun hstands hsame =>
    have hduring := ha.missed (ha.not_standing_iff.1 habsent) loader
    rw [hrun] at hduring
    exact (hsame page h).2 ((hduring.holds_iff page h).2 hstands)
  | installed _ _ _ _ hholds => exact (hholds page _).2 (.inl ⟨rfl, rfl⟩)

/-! ## All calls -/

/-- What is asked of a desk is answered as the journal so far says. -/
structure Follows (d : Desk α) (past : List (Event α)) : Prop where
  /-- A request without a loader gives the handle that stands, if one does. -/
  fetch : ∀ page name h, (d.fetch page name).1 = some h ↔ Standing past page h
  /-- A request with a loader ends in one of the ways described above. -/
  load : ∀ page name (loader : Script α), d.Loads past page name loader
    (d.load page name loader.run).1 (d.load page name loader.run).2 (d.loadEvents page name loader)
  /-- After a request with a loader, those pages are resident that stand then. -/
  holds_load : ∀ page name (loader : Script α) other h,
    (d.load page name loader.run).2.Holds other h ↔
      Standing (past ++ d.loadEvents page name loader) other h
  /-- If it succeeds, its answer is the handle under which the page is resident then. -/
  load_ok : ∀ page name (loader : Script α) h, (d.load page name loader.run).1 = .ok h →
    (d.load page name loader.run).2.Holds page h
  discardPage : ∀ page, (d.discardPage page).1 = true ↔ ∃ h, Standing past page h
  /-- The pages of a table that stand are taken out, and no others, and their number is given. -/
  discardTable : ∀ table, ∃ gone : List PageId, gone.Nodup ∧
    (∀ page, page ∈ gone ↔ page.table = table ∧ ∃ h, Standing past page h) ∧
    (d.discardTable table).1 = gone.length ∧
    ∀ page h, (d.discardTable table).2.Holds page h ↔ page.table ≠ table ∧ Standing past page h
  /-- Every request with a loader is counted, and so is every other request that got a page. -/
  requests : d.pool.hits + d.pool.misses = past.countP Event.isLoad + past.countP Event.isServed
  /-- A miss is counted for each time that a loader ran. -/
  misses : d.pool.misses = past.countP Event.isMiss
  /-- No two installations have the same ticket. -/
  nodup_tickets : (past.filterMap Event.ticket?).Nodup

namespace Agrees

variable {d : Desk α} {past : List (Event α)} {count : ℕ}

lemma discardPage_eq_true_iff (ha : d.Agrees past count) (page : PageId) :
    (d.discardPage page).1 = true ↔ ∃ h, Standing past page h := by
  rw [ha.exists_standing_iff, Assoc.mem_keys_iff, Desk.discardPage, Pool.discardPage]
  cases d.pool.table.find? page <;> simp

lemma discardTable (ha : d.Agrees past count) (table : TableId) :
    ∃ gone : List PageId, gone.Nodup ∧
      (∀ page, page ∈ gone ↔ page.table = table ∧ ∃ h, Standing past page h) ∧
      (d.discardTable table).1 = gone.length ∧
      ∀ page h, (d.discardTable table).2.Holds page h ↔
        page.table ≠ table ∧ Standing past page h := by
  refine ⟨d.pool.table.keys.filter fun page => page.table = table,
    d.pool.table.nodup_keys.filter _, fun page => ?_, rfl, fun page h => ?_⟩
  · rw [List.mem_filter, ha.exists_standing_iff, decide_eq_true_iff, and_comm]
  · have hlookup : (d.discardTable table).2.pool.lookup page =
        if page.table = table then none else d.pool.lookup page :=
      ha.sound.pool.lookup_discardTable table page
    rw [Holds, hlookup, ← ha.holds_iff, Holds]
    by_cases htable : page.table = table <;> simp [htable]

lemma follows (ha : d.Agrees past count) : d.Follows past where
  fetch page name h := (d.fetch_eq_some_iff page name h).trans (ha.holds_iff page h)
  load := ha.loads
  holds_load page name loader := (ha.load page name loader).holds_iff
  load_ok page name loader h hok := by
    have hloads := ha.loads page name loader
    rw [hok] at hloads
    exact hloads.holds ha
  discardPage := ha.discardPage_eq_true_iff
  discardTable := ha.discardTable
  requests := ha.requests
  misses := ha.misses
  nodup_tickets := ha.range_nextTicket ▸ List.nodup_range

end Agrees

end Desk

lemma Script.agrees_moment (s : Script α) (count n : ℕ) :
    (s.moment count n).Agrees (s.past count n) count :=
  (Desk.Agrees.ofFrames count).path ((s.path_journal _).take n)

/-- **A pool is a finite map of installations.**  At every moment of every run, also while loaders
run, any call is answered as the journal so far says; and a run ends where its journal does. -/
theorem Script.follows_moment (s : Script α) (count : ℕ) (_ : count ≤ Pool.maxFrames) :
    (∀ n, (s.moment count n).Follows (s.past count n)) ∧
      s.moment count (s.journal (Desk.ofFrames count)).length =
        (s.run (Desk.ofFrames count)).2 :=
  ⟨fun n => (s.agrees_moment count n).follows, s.moment_of_le count le_rfl⟩

/-- A client that loads a page with a loader that loads the same page. -/
def Script.nesting : Script ℕ :=
  .load ⟨⟨0⟩, ⟨0⟩⟩ (.load ⟨⟨0⟩, ⟨0⟩⟩ (.finish (.ok 10)) none fun _ => .finish (.ok 20)) none
    fun _ => .finish (.ok 0)

/-- The copy that the inner request brought is the one that stands, and both loaders have run. -/
theorem Script.follows_moment_nesting :
    ((nesting.moment 1 4).fetch ⟨⟨0⟩, ⟨0⟩⟩ none).1 = some ⟨0, 10⟩ ∧
      (nesting.moment 1 4).pool.misses = 2 := by
  have hfollows := (follows_moment nesting 1 (by decide)).1 4
  refine ⟨(hfollows.fetch _ none _).2 ?_, hfollows.misses⟩
  refine ⟨[.missed ⟨⟨0⟩, ⟨0⟩⟩, .missed ⟨⟨0⟩, ⟨0⟩⟩], none, [.found ⟨⟨0⟩, ⟨0⟩⟩ ⟨0, 10⟩], rfl, ?_⟩
  intro e he
  rw [List.mem_singleton.1 he]
  exact id

end RowStore
