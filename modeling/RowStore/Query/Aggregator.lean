import RowStore.Query.Group

/-!
# Aggregators

An aggregator takes in rows one after the other and keeps one tally per group.  There are two.

`NumberAggregator` takes the integers of a field and can give their count, sum, average, least or
greatest.  Counts and sums are kept in 32 bits and wrap around; an average is the wrapped sum
divided by the wrapped count, towards zero; and a tally whose count stands at zero reads as zero.

`TextAggregator` only counts rows, and does not look at the field it is asked to count.

Without grouping there is always one result, which is zero as long as no row was taken in.
-/

namespace RowStore

/-- The aggregate functions. -/
inductive AggregateOp where
  | min
  | max
  | sum
  | avg
  | count
  deriving DecidableEq, Hashable, Repr

/-- The name of an aggregate function, as it appears in column names. -/
def AggregateOp.name : AggregateOp → String
  | min => "min"
  | max => "max"
  | sum => "sum"
  | avg => "avg"
  | count => "count"

/-! ## Tallies -/

/-- The running figures of a group. -/
structure Tally where
  count : Int32
  sum : Int32
  least : Int32
  greatest : Int32
  deriving DecidableEq, Repr

namespace Tally

/-- The figures of a group without rows. -/
def empty : Tally := ⟨0, 0, Int32.maxValue, Int32.minValue⟩

/-- The figures after one more number. -/
def add (t : Tally) (n : Int32) : Tally where
  count := t.count + 1
  sum := t.sum + n
  least := if n < t.least then n else t.least
  greatest := if t.greatest < n then n else t.greatest

/-- The result that is read from the figures. -/
def result (t : Tally) (op : AggregateOp) : Int32 :=
  if t.count = 0 then 0
  else
    match op with
    | .count => t.count
    | .sum => t.sum
    | .avg => t.sum / t.count
    | .min => t.least
    | .max => t.greatest

end Tally

/-! ## Integers -/

/-- An aggregation of the integers of a field. -/
structure NumberAggregator where
  group : Option Nat
  field : Nat
  op : AggregateOp
  schema : Schema
  groups : Assoc GroupKey Tally
  /-- The rows taken in, without a bound; a counter of 64 bits would end with the row number
  2 ^ 64. -/
  merged : Nat

namespace NumberAggregator

/-- The aggregator before the first row; `schema` is that of the results. -/
def create (group : Option Nat) (field : Nat) (op : AggregateOp) (schema : Schema) :
    NumberAggregator :=
  ⟨group, field, op, schema, ∅, 0⟩

/-- The number that a row contributes. -/
def numberOf (a : NumberAggregator) (r : Row) : Except Failure Int32 := do
  match ← r.get a.field with
  | none => throw (.error (r.unsetError a.field))
  | some (.int n) => return n
  | some v => throw (.error (.typeMismatch ColumnType.int.name v.kind))

/-- Takes in a row. -/
def merge (a : NumberAggregator) (r : Row) : Except Failure NumberAggregator := do
  let n ← a.numberOf r
  let key ← GroupKey.of r a.group
  let tally := ((a.groups.find? key).getD Tally.empty).add n
  return { a with groups := a.groups.insert key tally, merged := a.merged + 1 }

/-- One row per group. -/
def results (a : NumberAggregator) : Except Failure (List Row) :=
  if a.group = none ∧ a.groups.entries = [] then
    return [← GroupKey.whole.toRow a.schema 0]
  else a.groups.entries.mapM fun (key, tally) => key.toRow a.schema (tally.result a.op)

end NumberAggregator

/-! ## Texts -/

/-- An aggregation of the texts of a field. -/
structure TextAggregator where
  group : Option Nat
  schema : Schema
  counts : Assoc GroupKey Int32
  /-- The rows taken in, without a bound; a counter of 64 bits would end with the row number
  2 ^ 64. -/
  merged : Nat

namespace TextAggregator

/-- The aggregator before the first row.  All that can be asked of texts is their count. -/
def create (group : Option Nat) (field : Nat) (op : AggregateOp) (schema : Schema) :
    Except Error TextAggregator :=
  if op = .count then .ok ⟨group, schema, ∅, 0⟩
  else .error (.unsupported
    (op.name ++ " over string column " ++ toString field ++ ", only count is supported"))

/-- Takes in a row. -/
def merge (a : TextAggregator) (r : Row) : Except Failure TextAggregator := do
  let key ← GroupKey.of r a.group
  let count := (a.counts.find? key).getD 0 + 1
  return { a with counts := a.counts.insert key count, merged := a.merged + 1 }

/-- One row per group. -/
def results (a : TextAggregator) : Except Failure (List Row) :=
  if a.group = none ∧ a.counts.entries = [] then
    return [← GroupKey.whole.toRow a.schema 0]
  else a.counts.entries.mapM fun (key, count) => key.toRow a.schema count

end TextAggregator

/-! ## Either -/

/-- An aggregator for a field of either kind. -/
inductive Aggregator where
  | numbers (a : NumberAggregator)
  | texts (a : TextAggregator)

namespace Aggregator

/-- The aggregator for a field of the given type. -/
def create (type : ColumnType) (group : Option Nat) (field : Nat) (op : AggregateOp)
    (schema : Schema) : Except Error Aggregator :=
  match type with
  | .int => .ok (numbers (NumberAggregator.create group field op schema))
  | .text _ => (TextAggregator.create group field op schema).map texts

/-- Takes in a row. -/
def merge (a : Aggregator) (r : Row) : Except Failure Aggregator :=
  match a with
  | numbers a => (a.merge r).map numbers
  | texts a => (a.merge r).map texts

/-- One row per group. -/
def results : Aggregator → Except Failure (List Row)
  | numbers a => a.results
  | texts a => a.results

/-- The number of rows taken in. -/
def merged : Aggregator → Nat
  | numbers a => a.merged
  | texts a => a.merged

end Aggregator

end RowStore
