import RowStore.Data.Assoc
import RowStore.Row

/-!
# Groups

An aggregation puts every row into a group: by the value of a field, or all rows into one.  The
result for a group is one row, the value of the group first if there is one, and the result last.
-/

namespace RowStore

/-- What an aggregation reports when a row has no value in a field that it needs. -/
def Row.unsetError (r : Row) (index : Nat) : Error :=
  match r.schema.typeAt index with
  | .ok ty => ty.unsetError
  | .error _ => .typeMismatch "a value" absentText

/-- The group of a row. -/
inductive GroupKey where
  /-- The one group of an aggregation without grouping. -/
  | whole
  /-- The rows with a given value in the group field. -/
  | value (v : Value)
  deriving DecidableEq, Repr

namespace GroupKey

/-- The group that a row belongs to; a row whose group field is unset belongs to none. -/
def of (r : Row) (group : Option Nat) : Except Failure GroupKey :=
  match group with
  | none => .ok whole
  | some index => do
    match ← r.get index with
    | some v => return value v
    | none => throw (.error (r.unsetError index))

/-- The values of the key: none or one. -/
def values : GroupKey → List Value
  | whole => []
  | value v => [v]

/-- The row for a group with a given result. -/
def toRow (key : GroupKey) (schema : Schema) (result : Int32) : Except Failure Row :=
  Row.ofValues schema (key.values ++ [.int result])

end GroupKey

end RowStore
