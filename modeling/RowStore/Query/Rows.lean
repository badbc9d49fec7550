import RowStore.Lookahead

/-!
# Rows in memory

The feed over a list of rows.  Its state is the position of the next row.  Opening and going back
set it to the first row, and closing sets it behind the last.
-/

namespace RowStore.RowList

variable {W : Type}

/-- Produces the row at the position, if there is one. -/
def fetch (rows : List Row) : Call W Nat (Option Row) := fun position w =>
  match rows[position]? with
  | some row => (.ok (some row), position + 1, w)
  | none => (.ok none, position, w)

/-- The feed over a list of rows. -/
def feed (rows : List Row) : Feed W Nat where
  start _ w := (.ok (), 0, w)
  fetch := fetch rows
  rewind _ w := (.ok (), 0, w)
  close _ w := (rows.length, w)

/-- A row is produced from a position within the list. -/
theorem lt_of_yields {rows : List Row} {after before : Nat}
    (h : (feed (W := W) rows).Yields after before) :
    after = before + 1 ∧ before < rows.length := by
  obtain ⟨w, row, w', h⟩ := h
  simp only [feed, fetch] at h
  split at h
  · next r hr =>
    cases h
    exact ⟨rfl, (List.getElem?_eq_some_iff.1 hr).1⟩
  · cases h

/-- A list has finitely many rows. -/
theorem finite_feed (rows : List Row) : (feed (W := W) rows).Finite where
  wf := by
    refine Subrelation.wf (r := (measure fun position => rows.length - position).rel) ?_
      (measure fun position => rows.length - position).wf
    intro after before h
    obtain ⟨rfl, hlt⟩ := lt_of_yields h
    show rows.length - (before + 1) < rows.length - before
    omega

end RowStore.RowList
