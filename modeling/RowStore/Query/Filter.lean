import RowStore.Lookahead
import RowStore.Query.Predicate

/-!
# Filters

The feed of a filter produces the rows of its child that match a predicate.  Its state is that of
the child.  A row on which the predicate fails is used up.
-/

namespace RowStore.Filter

variable {W σ : Type}

/-- The feed over the rows of a child that pass a test. -/
def feed (test : Row → Except Failure Bool) (child : Cursor W σ) (fin : child.Finite) :
    Feed W σ where
  start := child.start
  fetch := child.find fin test
  rewind := child.rewind
  close := child.close

/-- Searching for a row leaves a state behind that comes after at least one pull. -/
theorem transGen_of_find {child : Cursor W σ} {fin : child.Finite}
    {test : Row → Except Failure Bool} {s s' : σ} {w w' : W} {row : Row}
    (h : child.find fin test s w = (.ok (some row), s', w')) :
    Relation.TransGen child.Yields s' s := by
  fun_induction Cursor.find child fin test s w with
  | case1 => cases h
  | case2 => cases h
  | case3 => cases h
  | case4 s w row₁ s₁ w₁ hp ht =>
    cases h
    exact .single ⟨_, _, _, hp⟩
  | case5 s w row₁ s₁ w₁ hp ht ih =>
    exact .tail (ih h) ⟨_, _, _, hp⟩

/-- A filter produces no more rows than its child. -/
theorem finite_feed (test : Row → Except Failure Bool) (child : Cursor W σ)
    (fin : child.Finite) : (feed test child fin).Finite where
  wf := by
    refine Subrelation.wf (r := Relation.TransGen child.Yields) ?_ ?_
    · rintro s' s ⟨w, row, w', h⟩
      exact transGen_of_find h
    · exact fin.wf.transGen

end RowStore.Filter
