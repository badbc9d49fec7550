import RowStore.Query.Plan

/-!
# What a plan computes

The rows of a plan without cursors, states or pages.  What a plan hands out is a list of answers,
each a row or a failure; a failure does not end the list, since a consumer that is told of it may
ask on.

Filters and joins are the list functions one expects (`Answers.filter` and `Answers.join`): a join
goes through all right rows for every left row.  A failing test, or a pair that does not fill the
schema of the join, stands in the list at its place.  An aggregation has to take in all rows of its
child before it can hand out one (`Aggregation.summarize`), so it ends at their first failure.

Opening a plan makes the results of its aggregations, children before parents and left before right,
and may fail there.  `Plan.Evaluates` relates a plan to what comes of opening it: the first failure
that is met, or the answers.  It is a relation because the groups of an aggregation may be listed in
any order.
-/

namespace RowStore

/-- What is handed out at a place in a list: a row or a failure. -/
abbrev Answer := Except Failure Row

namespace Answers

/-! ## Taking answers one by one -/

/-- Whether there is a row at the head; a failure there is told and dropped. -/
def ask : List Answer → Except Failure Bool × List Answer
  | [] => (.ok false, [])
  | .ok row :: rest => (.ok true, .ok row :: rest)
  | .error e :: rest => (.error e, rest)

/-- The answer at the head, which has to exist. -/
def take : List Answer → Except Failure Row × List Answer
  | [] => (.error exhausted, [])
  | answer :: rest => (answer, rest)

/-- The answer at the head, if there is one. -/
def pop : List Answer → Except Failure (Option Row) × List Answer
  | [] => (.ok none, [])
  | answer :: rest => (answer.map some, rest)

/-- The rows of a list without failures. -/
def ofRows (rows : List Row) : List Answer := rows.map .ok

/-- The rows, or the first failure. -/
def drain (answers : List Answer) : Except Failure (List Row) := answers.mapM id

theorem drain_ofRows (rows : List Row) : drain (ofRows rows) = .ok rows := by
  induction rows with
  | nil => rfl
  | cons row rows ih =>
    rw [ofRows, List.map_cons, drain, List.mapM_cons]
    show (drain (ofRows rows)).bind _ = _
    rw [ih]
    rfl

/-! ## Filters and joins -/

/-- An answer after a test: a row that does not pass is left out. -/
def keep (test : Row → Except Failure Bool) : Answer → List Answer
  | .error e => [.error e]
  | .ok row =>
    match test row with
    | .error e => [.error e]
    | .ok true => [.ok row]
    | .ok false => []

/-- The answers that pass a test. -/
def filter (test : Row → Except Failure Bool) (answers : List Answer) : List Answer :=
  answers.flatMap (keep test)

theorem filter_cons (test : Row → Except Failure Bool) (answer : Answer) (rest : List Answer) :
    filter test (answer :: rest) = keep test answer ++ filter test rest := rfl

/-- The pairs of a left row with the right rows that pass a test with it. -/
def pair (schema : Schema) (test : Row → Row → Except Failure Bool) (right : List Answer)
    (l : Row) : List Answer :=
  (filter (test l) right).map fun answer => answer.bind (Row.append schema l)

/-- The pairs of a left and a right row that pass a test: for every left row in order, every right
row in order. -/
def join (schema : Schema) (test : Row → Row → Except Failure Bool) (left right : List Answer) :
    List Answer :=
  left.flatMap fun answer =>
    match answer with
    | .error e => [.error e]
    | .ok l => pair schema test right l

end Answers

/-! ## Aggregations -/

/-- The result of an aggregate function for a list of numbers.  Counts and sums are reduced to 32
bits, and where the reduced count is zero, the result is zero. -/
def AggregateOp.value (op : AggregateOp) (numbers : List Int32) : Int32 :=
  let count := Int32.ofNat numbers.length
  if count = 0 then 0
  else
    match op with
    | .count => count
    | .sum => numbers.sum
    | .avg => numbers.sum / count
    | .min => numbers.min?.getD 0
    | .max => numbers.max?.getD 0

namespace Aggregation

/-- What a row contributes: its group, and its number unless texts are counted. -/
def entry (a : Aggregation) (r : Row) : Except Failure (GroupKey × Int32) := do
  match a.type with
  | .text _ => return (← GroupKey.of r a.group, 0)
  | .int =>
    match ← r.get a.field with
    | none => throw (.error (r.unsetError a.field))
    | some (.int n) => return (← GroupKey.of r a.group, n)
    | some v => throw (.error (.typeMismatch ColumnType.int.name v.kind))

/-- The groups: all rows, or one for each value that occurs in the group field. -/
def keys (a : Aggregation) (entries : List (GroupKey × Int32)) : List GroupKey :=
  match a.group with
  | none => [.whole]
  | some _ => (entries.map Prod.fst).eraseDups

/-- The numbers of a group. -/
def numbers (key : GroupKey) (entries : List (GroupKey × Int32)) : List Int32 :=
  (entries.filter fun e => e.1 = key).map Prod.snd

/-- One row per group, unless a row is missing or cannot be taken in. -/
def summarize (a : Aggregation) (answers : List Answer) : Except Failure (List Row) := do
  let _ ← a.aggregator
  let entries ← answers.mapM fun answer => answer.bind a.entry
  (a.keys entries).mapM fun key => key.toRow a.schema (a.op.value (numbers key entries))

end Aggregation

/-! ## Plans -/

/-- Opening a plan over the tables of a catalog fails, or leads to answers. -/
inductive Plan.Evaluates (c : Catalog) (d : Disk) : Plan → Except Failure (List Answer) → Prop
  | rows {schema : Schema} {list : List Row} :
    Evaluates c d (.rows schema list) (.ok (Answers.ofRows list))
  | scan {t : TableScan} {file : HeapFile} {list : List Row}
      (hfile : c.heapFile t.table = .ok file) (hlist : file.contents d = .ok list) :
    Evaluates c d (.scan t) (.ok (Answers.ofRows list))
  | filter {predicate : Predicate} {child : Plan} {result : Except Failure (List Answer)}
      (hchild : Evaluates c d child result) :
    Evaluates c d (.filter predicate child) (result.map (Answers.filter predicate.test))
  | join_left {predicate : JoinPredicate} {left right : Plan} {e : Failure}
      (hleft : Evaluates c d left (.error e)) :
    Evaluates c d (.join predicate left right) (.error e)
  | join {predicate : JoinPredicate} {left right : Plan} {answers : List Answer}
      {result : Except Failure (List Answer)} (hleft : Evaluates c d left (.ok answers))
      (hright : Evaluates c d right result) :
    Evaluates c d (.join predicate left right)
      (result.map (Answers.join (left.schema.append right.schema) predicate.test answers))
  | aggregate {a : Aggregation} {child : Plan} {result : Except Failure (List Answer)}
      {list : List Row} (hchild : Evaluates c d child result)
      (hlist : result.bind a.summarize = .ok list) {arranged : List Row}
      (hperm : arranged.Perm list) :
    Evaluates c d (.aggregate a child) (.ok (Answers.ofRows arranged))
  | aggregate_failed {a : Aggregation} {child : Plan} {result : Except Failure (List Answer)}
      {e : Failure} (hchild : Evaluates c d child result)
      (hfailed : result.bind a.summarize = .error e) :
    Evaluates c d (.aggregate a child) (.error e)

end RowStore
