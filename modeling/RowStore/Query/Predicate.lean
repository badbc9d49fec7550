import RowStore.Row

/-!
# Predicates

A predicate compares a field of a row with a constant, and a join predicate compares a field of one
row with a field of another.  An unset field never matches.  The fields are named by position, and
it is up to the caller that the rows have them.
-/

namespace RowStore

/-- The comparison of a field with a constant. -/
structure Predicate where
  field : Nat
  op : Comparison
  operand : Value
  deriving DecidableEq, Repr

/-- The comparison of a field of a left row with a field of a right row. -/
structure JoinPredicate where
  left : Nat
  op : Comparison
  right : Nat
  deriving DecidableEq, Repr

/-- The comparison of two fields; an unset one never matches. -/
def testFields (op : Comparison) : Option Value → Option Value → Except Error Bool
  | some a, some b => a.test op b
  | _, _ => .ok false

namespace Predicate

/-- Whether a row matches. -/
def test (p : Predicate) (r : Row) : Except Failure Bool := do
  let field ← r.get p.field
  testFields p.op field (some p.operand)

/-- A predicate prints as the position of the field, the comparison and the constant. -/
def text (p : Predicate) : String :=
  "f" ++ toString p.field ++ " " ++ p.op.symbol ++ " " ++ p.operand.print

end Predicate

namespace JoinPredicate

/-- Whether two rows match. -/
def test (p : JoinPredicate) (l r : Row) : Except Failure Bool := do
  let a ← l.get p.left
  let b ← r.get p.right
  testFields p.op a b

/-- A join predicate prints as the two positions with the comparison between them. -/
def text (p : JoinPredicate) : String :=
  "left.f" ++ toString p.left ++ " " ++ p.op.symbol ++ " right.f" ++ toString p.right

end JoinPredicate

end RowStore
