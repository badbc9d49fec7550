import RowStore.Query.Filter

/-!
# Joins

The feed of a join produces the pairs of a left and a right row that pass a test, each as one row
with the left fields first.  For every left row the right child is run through once and taken back
to its first row.  After a match the right child stays where it is, and the left row is kept, so the
next row is looked for from there.

A child can hand out rows that are wider or narrower than its schema, if its table was registered
under another one meanwhile.  A pair that does not fill the schema of the join is a broken contract.
-/

namespace RowStore

/-- The states of the children, and the left row that is being matched. -/
structure JoinState (σ τ : Type) where
  left : σ
  right : τ
  current : Option Row

/-- What a join consists of: the schema of its rows, the test, and the children. -/
structure Join (W σ τ : Type) where
  schema : Schema
  test : Row → Row → Except Failure Bool
  left : Cursor W σ
  leftFinite : left.Finite
  right : Cursor W τ
  rightFinite : right.Finite

namespace Join

variable {W σ τ : Type}

/-- Looks for a match of the left row `l` among the rows that are left on the right, and then of
the left rows that follow it. -/
def search (j : Join W σ τ) (l : Row) (left : σ) (right : τ) (w : W) :
    Except Failure (Option Row) × JoinState σ τ × W :=
  match j.right.find j.rightFinite (j.test l) right w with
  | (.error e, right, w) => (.error e, ⟨left, right, some l⟩, w)
  | (.ok (some r), right, w) => ((Row.append j.schema l r).map some, ⟨left, right, some l⟩, w)
  | (.ok none, right, w) =>
    match j.right.rewind right w with
    | (.error e, right, w) => (.error e, ⟨left, right, some l⟩, w)
    | (.ok (), right, w) =>
      match _h : j.left.pull left w with
      | (.error e, left, w) => (.error e, ⟨left, right, none⟩, w)
      | (.ok none, left, w) => (.ok none, ⟨left, right, none⟩, w)
      | (.ok (some l'), left', w') => search j l' left' right w'
termination_by j.leftFinite.wf.wrap left
decreasing_by exact ⟨w, l', w', _h⟩

/-- Produces the next match. -/
def fetch (j : Join W σ τ) : Call W (JoinState σ τ) (Option Row) := fun s w =>
  match s.current with
  | some l => j.search l s.left s.right w
  | none =>
    match j.left.pull s.left w with
    | (.error e, left, w) => (.error e, { s with left := left }, w)
    | (.ok none, left, w) => (.ok none, { s with left := left }, w)
    | (.ok (some l), left, w) => j.search l left s.right w

section

variable {j : Join W σ τ} {l : Row} {left : σ} {right right' : τ} {w w' : W}

theorem search_of_error {e : Failure}
    (h : j.right.find j.rightFinite (j.test l) right w = (.error e, right', w')) :
    j.search l left right w = (.error e, ⟨left, right', some l⟩, w') := by
  rw [search]
  simp only [h]

theorem search_of_some {r : Row}
    (h : j.right.find j.rightFinite (j.test l) right w = (.ok (some r), right', w')) :
    j.search l left right w =
      ((Row.append j.schema l r).map some, ⟨left, right', some l⟩, w') := by
  rw [search]
  simp only [h]

theorem search_of_rewind_error {right'' : τ} {w'' : W} {e : Failure}
    (h : j.right.find j.rightFinite (j.test l) right w = (.ok none, right', w'))
    (hrewind : j.right.rewind right' w' = (.error e, right'', w'')) :
    j.search l left right w = (.error e, ⟨left, right'', some l⟩, w'') := by
  rw [search]
  simp only [h, hrewind]

/-- When the rows of the right child are used up, the search goes on as it began. -/
theorem search_of_none {right'' : τ} {w'' : W}
    (h : j.right.find j.rightFinite (j.test l) right w = (.ok none, right', w'))
    (hrewind : j.right.rewind right' w' = (.ok (), right'', w'')) :
    j.search l left right w = j.fetch ⟨left, right'', none⟩ w'' := by
  rw [search, fetch]
  simp only [h, hrewind]
  split <;> simp_all

end

section

variable {j : Join W σ τ} {left left' : σ} {right : τ} {w w' : W}

/-- The next left row is matched from where the right child is. -/
theorem fetch_of_some {l : Row} (h : j.left.pull left w = (.ok (some l), left', w')) :
    j.fetch ⟨left, right, none⟩ w = j.search l left' right w' := by
  simp only [fetch, h]

theorem fetch_of_none (h : j.left.pull left w = (.ok none, left', w')) :
    j.fetch ⟨left, right, none⟩ w = (.ok none, ⟨left', right, none⟩, w') := by
  simp only [fetch, h]

end

/-- Opens the left child and then the right one. -/
def start (j : Join W σ τ) : Call W (JoinState σ τ) Unit := fun s w =>
  match j.left.start s.left w with
  | (.error e, left, w) => (.error e, { s with left := left }, w)
  | (.ok (), left, w) =>
    match j.right.start s.right w with
    | (.error e, right, w) => (.error e, ⟨left, right, s.current⟩, w)
    | (.ok (), right, w) => (.ok (), ⟨left, right, none⟩, w)

/-- Takes the left child back and then the right one. -/
def rewind (j : Join W σ τ) : Call W (JoinState σ τ) Unit := fun s w =>
  match j.left.rewind s.left w with
  | (.error e, left, w) => (.error e, { s with left := left }, w)
  | (.ok (), left, w) =>
    match j.right.rewind s.right w with
    | (.error e, right, w) => (.error e, ⟨left, right, s.current⟩, w)
    | (.ok (), right, w) => (.ok (), ⟨left, right, none⟩, w)

/-- Closes the left child and then the right one. -/
def close (j : Join W σ τ) (s : JoinState σ τ) (w : W) : JoinState σ τ × W :=
  let (left, w) := j.left.close s.left w
  let (right, w) := j.right.close s.right w
  (⟨left, right, none⟩, w)

/-- The feed of a join. -/
def feed (j : Join W σ τ) : Feed W (JoinState σ τ) where
  start := j.start
  fetch := j.fetch
  rewind := j.rewind
  close := j.close

/-! ## Finiteness -/

/-- A match leaves the left child where it was and the right one further on, or the left child
further on. -/
theorem progress_of_search {j : Join W σ τ} {l row : Row} {left : σ} {right : τ} {w w' : W}
    {s : JoinState σ τ} (h : j.search l left right w = (.ok (some row), s, w')) :
    s.left = left ∧ Relation.TransGen j.right.Yields s.right right ∨
      Relation.TransGen j.left.Yields s.left left := by
  fun_induction search j l left right w with
  | case1 => cases h
  | case2 l left right w r right₁ w₁ hf =>
    simp only [Prod.mk.injEq] at h
    obtain ⟨_, rfl, _⟩ := h
    exact .inl ⟨rfl, Filter.transGen_of_find hf⟩
  | case3 => cases h
  | case4 => cases h
  | case5 => cases h
  | case6 l left right w right₁ w₁ hf right₂ w₂ hr l' left' w₃ hp ih =>
    have step : j.left.Yields left' left := ⟨_, _, _, hp⟩
    rcases ih h with ⟨hl, _⟩ | hl
    · exact .inr (hl ▸ .single step)
    · exact .inr (.tail hl step)

/-- Producing a row makes progress in the same sense. -/
theorem progress_of_yields {j : Join W σ τ} {after before : JoinState σ τ}
    (h : j.feed.Yields after before) :
    after.left = before.left ∧ Relation.TransGen j.right.Yields after.right before.right ∨
      Relation.TransGen j.left.Yields after.left before.left := by
  obtain ⟨w, row, w', h⟩ := h
  simp only [feed, fetch] at h
  split at h
  · exact progress_of_search h
  · split at h
    · cases h
    · cases h
    · next l left w₁ hp =>
      have step : j.left.Yields left before.left := ⟨_, _, _, hp⟩
      rcases progress_of_search h with ⟨hl, _⟩ | hl
      · exact .inr (hl ▸ .single step)
      · exact .inr (.tail hl step)

/-- The join of finite children is finite. -/
theorem finite_feed (j : Join W σ τ) : j.feed.Finite where
  wf := by
    have key : ∀ left : σ, ∀ right : τ, ∀ current, Acc j.feed.Yields ⟨left, right, current⟩ := by
      intro left
      induction (j.leftFinite.wf.transGen).apply left with
      | intro left _ ihl =>
        intro right
        induction (j.rightFinite.wf.transGen).apply right with
        | intro right _ ihr =>
          intro current
          refine Acc.intro _ fun t ht => ?_
          obtain ⟨tl, tr, tc⟩ := t
          rcases progress_of_yields ht with ⟨hl, hr⟩ | hl
          · simp only at hl
            subst hl
            exact ihr tr hr tc
          · exact ihl tl hl tr tc
    exact ⟨fun s => key s.left s.right s.current⟩

end Join

end RowStore
