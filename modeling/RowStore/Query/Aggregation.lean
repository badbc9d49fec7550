import RowStore.Lookahead
import RowStore.Query.Aggregator
import RowStore.Query.Rows

/-!
# Aggregations

The feed of an aggregation pulls all rows of its child when it is opened, takes them into an
aggregator, and then hands out the results.  The child stays open, but is not asked for anything
again: going back only goes back to the first result.

In which order the groups are listed is not part of an aggregation.  It is given by an
`Arrangement`, which may depend on the world at the moment when the results are made; the plain one
lists groups in the order in which they first occurred.
-/

namespace RowStore

/-- A way to list the results of an aggregation: it only changes their order. -/
structure Arrangement (W : Type) where
  apply : W → List Row → List Row
  perm : ∀ w rows, (apply w rows).Perm rows

/-- The arrangement that lists groups as they first occurred. -/
def Arrangement.plain {W : Type} : Arrangement W := ⟨fun _ rows => rows, fun _ _ => .refl _⟩

/-- What an aggregation computes: the function, the field and its type, the field that rows are
grouped by if there is one, and the schema of the results. -/
structure Aggregation where
  field : Nat
  type : ColumnType
  group : Option Nat
  op : AggregateOp
  schema : Schema
  deriving DecidableEq, Repr

namespace Aggregation

/-- The column of the results of a function of a column. -/
def resultColumn (op : AggregateOp) (name : Option String) : Column :=
  ⟨.int, some (op.name ++ "(" ++ name.getD absentText ++ ")")⟩

/-- An aggregator before the first row. -/
def aggregator (a : Aggregation) : Except Error Aggregator :=
  Aggregator.create a.type a.group a.field a.op a.schema

/-- The aggregation of a field of rows with the given schema.  The field and the group field have to
exist, and the function has to be one for the type of the field. -/
def ofSchema (input : Schema) (field : Nat) (group : Option Nat) (op : AggregateOp) :
    Except Error Aggregation := do
  let column ← input.column field
  let result := resultColumn op column.name
  let schema ← match group with
    | none => pure ⟨[result], by simp⟩
    | some index => do
      let key ← input.column index
      pure ⟨[key, result], by simp⟩
  let a : Aggregation := ⟨field, column.type, group, op, schema⟩
  let _ ← a.aggregator
  return a

end Aggregation

/-! ## The feed -/

/-- The state of the child, and the results with the position of the next, once they are made. -/
structure AggregationState (σ : Type) where
  child : σ
  results : Option (List Row × Nat)

namespace Aggregation

variable {W σ : Type}

/-- Makes the results, by pulling all rows of the child. -/
def start (a : Aggregation) (order : Arrangement W) (child : Cursor W σ) (fin : child.Finite) :
    Call W (AggregationState σ) Unit := fun s w =>
  match child.start s.child w with
  | (.error e, c, w) => (.error e, { s with child := c }, w)
  | (.ok (), c, w) =>
    match a.aggregator with
    | .error e => (.error (.error e), { s with child := c }, w)
    | .ok initial =>
      match child.fold fin Aggregator.merge initial c w with
      | (.error e, c, w) => (.error e, { s with child := c }, w)
      | (.ok final, c, w) =>
        match final.results with
        | .error e => (.error e, { s with child := c }, w)
        | .ok rows => (.ok (), ⟨c, some (order.apply w rows, 0)⟩, w)

/-- Hands out the next result. -/
def fetch : Call W (AggregationState σ) (Option Row) := fun s w =>
  match s.results with
  | none => (.ok none, s, w)
  | some (rows, position) =>
    let (answer, position, w) := RowList.fetch rows position w
    (answer, { s with results := some (rows, position) }, w)

/-- Goes back to the first result. -/
def rewind : Call W (AggregationState σ) Unit := fun s w =>
  (.ok (), { s with results := s.results.map fun (rows, _) => (rows, 0) }, w)

/-- Drops the results and closes the child. -/
def close (child : Cursor W σ) (s : AggregationState σ) (w : W) : AggregationState σ × W :=
  let (c, w) := child.close s.child w
  (⟨c, none⟩, w)

/-- The feed of an aggregation. -/
def feed (a : Aggregation) (order : Arrangement W) (child : Cursor W σ) (fin : child.Finite) :
    Feed W (AggregationState σ) where
  start := a.start order child fin
  fetch := fetch
  rewind := rewind
  close := close child

/-- The number of results still to come. -/
def remaining (s : AggregationState σ) : Nat :=
  match s.results with
  | none => 0
  | some (rows, position) => rows.length - position

/-- There are finitely many results. -/
theorem finite_feed (a : Aggregation) (order : Arrangement W) (child : Cursor W σ)
    (fin : child.Finite) : (a.feed order child fin).Finite where
  wf := by
    refine Subrelation.wf (r := (measure remaining).rel) ?_ (measure remaining).wf
    rintro ⟨c', results'⟩ ⟨c, results⟩ ⟨w, row, w', h⟩
    show remaining _ < remaining _
    cases results with
    | none => simp [feed, fetch] at h
    | some r =>
      obtain ⟨rows, position⟩ := r
      simp only [feed, fetch, RowList.fetch] at h
      split at h
      · next row₁ hr =>
        have hlt := (List.getElem?_eq_some_iff.1 hr).1
        cases h
        simp only [remaining]
        omega
      · cases h

end Aggregation

end RowStore
