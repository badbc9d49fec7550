import RowStore.Proofs.Pool.History

/-!
# The journal of a run

A run is told here call by call, as its clients see it: which requests were answered at once, for
which a loader began to run, and what became of the page that the loader brought.  The journal also
says which page had to give way when a page was installed, and it holds the desk after each entry.
What a loader does stands between the entry that says that it begins and the one that says how the
request ended.

`Script.path_journal` connects the journal with the run: every entry is a step from the desk of the
entry before (`Desk.Step`), and the last desk is where the run ends.
-/

namespace RowStore

variable {α : Type}

/-! ## Entries -/

/-- What came of a call, or of a part of one. -/
inductive Event (α : Type) where
  /-- A request without a loader, and its answer. -/
  | fetched (page : PageId) (answer : Option (Handle α))
  /-- A request with a loader that was answered from the pool. -/
  | hit (page : PageId) (h : Handle α)
  /-- A request with a loader that was not answered from the pool: the loader begins to run. -/
  | missed (page : PageId)
  /-- The loader of a request failed. -/
  | failed (page : PageId) (cause : Error)
  /-- A loader brought a page that was resident by then, under the handle given. -/
  | found (page : PageId) (h : Handle α)
  /-- The page that a loader brought was installed, and another one gave way to it or none. -/
  | installed (page : PageId) (h : Handle α) (evicted : Option PageId)
  /-- There was no room for the page that a loader brought. -/
  | refused (page : PageId)
  /-- The handle that was kept under a name was given back. -/
  | released (name : String)
  /-- A page was taken out of the pool, if it was there. -/
  | discarded (page : PageId)
  /-- The pages of a table were taken out of the pool. -/
  | tableDiscarded (table : TableId)
  /-- All pages were taken out of the pool. -/
  | cleared

/-- The page that gives way when room is made for another: the one in the frame that is taken. -/
def Pool.evicted? (p : Pool α) : Option PageId := p.allocate.1.bind p.pageIn?

namespace Desk

/-- What comes of a page that a loader has brought. -/
def admission (d : Desk α) (page : PageId) (content : α) : Event α :=
  match d.pool.lookup page with
  | some (_, h) => .found page h
  | none =>
    match (d.pool.accept page content).1 with
    | .ok h => .installed page h d.pool.evicted?
    | .error _ => .refused page

/-- The journal of a request, given that of its loader. -/
def loadJournal (d : Desk α) (page : PageId) (keep : Option String)
    (loader : Desk α → Except Error α × Desk α) (during : Desk α → List (Event α × Desk α)) :
    List (Event α × Desk α) :=
  match d.fetch page keep with
  | (some h, d) => [(.hit page h, d)]
  | (none, d) =>
    (.missed page, d.countMiss) :: during d.countMiss ++
      match loader d.countMiss with
      | (.error e, d) => [(.failed page e, d)]
      | (.ok content, d) => [(d.admission page content, (d.accept page keep content).2)]

end Desk

/-- The journal of a run: what came of its calls, and the desk after each. -/
def Script.journal : Script α → Desk α → List (Event α × Desk α)
  | finish _, _ => []
  | load page loader keep next, d =>
    d.loadJournal page keep loader.run loader.journal ++
      (next (d.load page keep loader.run).1).journal (d.load page keep loader.run).2
  | fetch page keep next, d =>
    (.fetched page (d.fetch page keep).1, (d.fetch page keep).2) ::
      (next (d.fetch page keep).1).journal (d.fetch page keep).2
  | release name next, d =>
    (.released name, (d.release name).2) :: (next (d.release name).1).journal (d.release name).2
  | discardPage page next, d =>
    (.discarded page, (d.discardPage page).2) ::
      (next (d.discardPage page).1).journal (d.discardPage page).2
  | discardTable table next, d =>
    (.tableDiscarded table, (d.discardTable table).2) ::
      (next (d.discardTable table).1).journal (d.discardTable table).2
  | clear next, d => (.cleared, d.clear) :: next.journal d.clear

/-! ## Steps -/

namespace Desk

/-- An entry of a journal, between the desks before and after it. -/
inductive Step : Desk α → Event α → Desk α → Prop
  | fetched (d : Desk α) (page : PageId) (keep : Option String) :
    Step d (.fetched page (d.fetch page keep).1) (d.fetch page keep).2
  | hit {d d' : Desk α} {page : PageId} {keep : Option String} {h : Handle α}
      (heq : d.fetch page keep = (some h, d')) : Step d (.hit page h) d'
  | missed {d d' : Desk α} {page : PageId} {keep : Option String}
      (heq : d.fetch page keep = (none, d')) : Step d (.missed page) d'.countMiss
  | failed (d : Desk α) (page : PageId) (cause : Error) : Step d (.failed page cause) d
  | admitted (d : Desk α) (page : PageId) (keep : Option String) (content : α) :
    Step d (d.admission page content) (d.accept page keep content).2
  | released (d : Desk α) (name : String) : Step d (.released name) (d.release name).2
  | discarded (d : Desk α) (page : PageId) : Step d (.discarded page) (d.discardPage page).2
  | tableDiscarded (d : Desk α) (table : TableId) :
    Step d (.tableDiscarded table) (d.discardTable table).2
  | cleared (d : Desk α) : Step d .cleared d.clear

/-- Entries each of which is a step from the desk of the one before. -/
inductive Path : Desk α → List (Event α × Desk α) → Desk α → Prop
  | nil (d : Desk α) : Path d [] d
  | cons {d d₁ d₂ : Desk α} {e : Event α} {rest : List (Event α × Desk α)} (hstep : d.Step e d₁)
      (hrest : Path d₁ rest d₂) : Path d ((e, d₁) :: rest) d₂

/-- The desk of the last entry, or the one given if there are no entries. -/
def last : Desk α → List (Event α × Desk α) → Desk α
  | d, [] => d
  | _, (_, d) :: rest => d.last rest

namespace Path

variable {d d₁ d₂ : Desk α} {first second : List (Event α × Desk α)}

lemma append (h₁ : d.Path first d₁) (h₂ : d₁.Path second d₂) : d.Path (first ++ second) d₂ := by
  induction h₁ with
  | nil => exact h₂
  | cons hstep _ ih => exact .cons hstep (ih h₂)

lemma single {e : Event α} (hstep : d.Step e d₁) : d.Path [(e, d₁)] d₁ := .cons hstep (.nil d₁)

lemma last_eq (h : d.Path first d₁) : d.last first = d₁ := by
  induction h with
  | nil => rfl
  | cons _ _ ih => exact ih

/-- The first entries of a path are a path. -/
lemma take (h : d.Path first d₁) (n : ℕ) : d.Path (first.take n) (d.last (first.take n)) := by
  induction h generalizing n with
  | nil => rw [List.take_nil]; exact .nil _
  | cons hstep _ ih =>
    cases n with
    | zero => exact .nil _
    | succ n => exact .cons hstep (ih n)

end Path

/-- A request goes the way that its journal tells, if its loader does. -/
lemma path_loadJournal (d : Desk α) (page : PageId) (keep : Option String)
    {loader : Desk α → Except Error α × Desk α} {during : Desk α → List (Event α × Desk α)}
    (hloader : ∀ d : Desk α, d.Path (during d) (loader d).2) :
    d.Path (d.loadJournal page keep loader during) (d.load page keep loader).2 := by
  unfold load loadJournal
  rcases hfetch : d.fetch page keep with ⟨_ | h, d₁⟩
  · have hduring := hloader d₁.countMiss
    show d.Path ((.missed page, d₁.countMiss) :: during d₁.countMiss ++ _)
      (match loader d₁.countMiss with
        | (.error e, d) => (.error e, d)
        | (.ok content, d) => d.accept page keep content :
          Except Error (Handle α) × Desk α).2
    refine Path.cons (.missed hfetch) (hduring.append ?_)
    rcases loader d₁.countMiss with ⟨e | content, d₂⟩
    · exact .single (.failed d₂ page e)
    · exact .single (.admitted d₂ page keep content)
  · exact .single (.hit hfetch)

end Desk

/-- **A run goes the way that its journal tells.** -/
theorem Script.path_journal (s : Script α) (d : Desk α) : d.Path (s.journal d) (s.run d).2 := by
  induction s generalizing d with
  | finish answer => exact .nil d
  | load page loader keep next ihl ihn =>
    exact (d.path_loadJournal page keep ihl).append (ihn _ _)
  | fetch page keep next ih => exact .cons (.fetched d page keep) (ih _ _)
  | release name next ih => exact .cons (.released d name) (ih _ _)
  | discardPage page next ih => exact .cons (.discarded d page) (ih _ _)
  | discardTable table next ih => exact .cons (.tableDiscarded d table) (ih _ _)
  | clear next ih => exact .cons (.cleared d) (ih _)

/-! ## Moments -/

/-- The first `n` entries of the journal of a run that begins with an empty pool. -/
def Script.past (s : Script α) (count n : ℕ) : List (Event α) :=
  ((s.journal (.ofFrames count)).take n).map Prod.fst

/-- The desk after these entries. -/
def Script.moment (s : Script α) (count n : ℕ) : Desk α :=
  (Desk.ofFrames count).last ((s.journal (.ofFrames count)).take n)

/-- The last moment of a run is where it ends. -/
lemma Script.moment_of_le (s : Script α) (count : ℕ) {n : ℕ}
    (hn : (s.journal (Desk.ofFrames count)).length ≤ n) :
    s.moment count n = (s.run (Desk.ofFrames count)).2 := by
  rw [moment, List.take_of_length_le hn]
  exact (s.path_journal _).last_eq

end RowStore
