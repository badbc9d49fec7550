import RowStore.Query.Aggregation
import RowStore.Query.Join
import RowStore.Query.TableScan

/-!
# Query plans

A plan is a tree of operators: rows in memory and table scans at the leaves, filters, joins and
aggregations above them.  `Plan.schema` is the schema of the rows of a plan.

A plan says what is computed and has no state.  The states in which its cursor can be form a type of
their own for every plan (`Plan.State`), which follows the tree, and `Plan.cursor` is the cursor
over these states, with the proof that it is finite.  Every operator but the table scan hands its
rows out by way of one row ahead.

In which order groups are listed is left open by a plan.  It is settled for every aggregation by
itself when a cursor is made (`Plan.Orders`).
-/

namespace RowStore

/-- A tree of operators. -/
inductive Plan where
  /-- Rows in memory. -/
  | rows (schema : Schema) (list : List Row)
  /-- The rows of a table. -/
  | scan (scan : TableScan)
  /-- The rows that match a predicate. -/
  | filter (predicate : Predicate) (child : Plan)
  /-- The pairs of rows that match a predicate. -/
  | join (predicate : JoinPredicate) (left right : Plan)
  /-- One row per group. -/
  | aggregate (aggregation : Aggregation) (child : Plan)
  deriving DecidableEq

namespace Plan

/-- The schema of the rows of a plan. -/
def schema : Plan → Schema
  | rows schema _ => schema
  | scan t => t.schema
  | filter _ child => child.schema
  | join _ left right => left.schema.append right.schema
  | aggregate a _ => a.schema

/-! ## Making plans -/

/-- The scan of a table that is registered at present. -/
def ofTable (c : Catalog) (table : TableId) (qualifier : Option String) : Except Error Plan :=
  (TableScan.ofCatalog c table qualifier).map scan

/-- The aggregation of a field of a plan. -/
def aggregated (child : Plan) (field : Nat) (group : Option Nat) (op : AggregateOp) :
    Except Error Plan :=
  (Aggregation.ofSchema child.schema field group op).map fun a => aggregate a child

/-! ## Running plans -/

/-- The states of the cursor of a plan. -/
def State : Plan → Type
  | rows _ _ => Lookahead Nat
  | scan _ => Option FileScan
  | filter _ child => Lookahead child.State
  | join _ left right => Lookahead (JoinState left.State right.State)
  | aggregate _ child => Lookahead (AggregationState child.State)

/-- The state of a cursor that was never opened. -/
def initial : (p : Plan) → p.State
  | rows _ _ => Lookahead.closed 0
  | scan _ => none
  | filter _ child => Lookahead.closed child.initial
  | join _ left right => Lookahead.closed ⟨left.initial, right.initial, none⟩
  | aggregate _ child => Lookahead.closed ⟨child.initial, none⟩

/-- The handles that a cursor holds. -/
def handles : (p : Plan) → p.State → List (Handle Page)
  | rows _ _, _ => []
  | scan _, s => (Option.bind s FileScan.handle?).toList
  | filter _ child, s => child.handles (Lookahead.feed s)
  | join _ left right, s =>
    left.handles (Lookahead.feed s).left ++ right.handles (Lookahead.feed s).right
  | aggregate _ child, s => child.handles (Lookahead.feed s).child

variable {W : Type} [Storage W]

/-- For every aggregation of a plan, how it lists its results. -/
def Orders (W : Type) : Plan → Type
  | rows _ _ | scan _ => Unit
  | filter _ child => child.Orders W
  | join _ left right => left.Orders W × right.Orders W
  | aggregate _ child => Arrangement W × child.Orders W

/-- Every aggregation lists groups as they first occurred. -/
def Orders.plain {W : Type} : {p : Plan} → p.Orders W
  | rows _ _ | scan _ => ()
  | filter _ child => plain (p := child)
  | join _ _ _ => (plain, plain)
  | aggregate _ _ => (.plain, plain)

/-- The cursor over the rows of a plan, and that it is finite. -/
def finiteCursor : (p : Plan) → p.Orders W → { c : Cursor W p.State // c.Finite }
  | rows _ list, _ =>
    ⟨Lookahead.cursor (RowList.feed list), Lookahead.finite_cursor (RowList.finite_feed list)⟩
  | scan t, _ => ⟨t.cursor, t.finite_cursor⟩
  | filter predicate child, orders =>
    let c := child.finiteCursor orders
    ⟨Lookahead.cursor (Filter.feed predicate.test c.val c.property),
      Lookahead.finite_cursor (Filter.finite_feed _ _ _)⟩
  | join predicate left right, orders =>
    let l := left.finiteCursor orders.1
    let r := right.finiteCursor orders.2
    let j : Join W left.State right.State :=
      ⟨left.schema.append right.schema, predicate.test, l.val, l.property, r.val, r.property⟩
    ⟨Lookahead.cursor j.feed, Lookahead.finite_cursor j.finite_feed⟩
  | aggregate a child, orders =>
    let c := child.finiteCursor orders.2
    ⟨Lookahead.cursor (a.feed orders.1 c.val c.property),
      Lookahead.finite_cursor (a.finite_feed orders.1 _ _)⟩

/-- The cursor over the rows of a plan. -/
def cursor (p : Plan) (orders : p.Orders W) : Cursor W p.State := (p.finiteCursor orders).val

theorem finite_cursor (p : Plan) (orders : p.Orders W) : (p.cursor orders).Finite :=
  (p.finiteCursor orders).property

/-- Pulls all rows of a plan whose cursor is open. -/
def drain (p : Plan) (orders : p.Orders W) : Call W p.State (List Row) :=
  (p.cursor orders).drain (p.finite_cursor orders)

/-- Gives back the handles of a cursor that is no longer used. -/
def abandon (p : Plan) (s : p.State) (w : W) : W :=
  (p.handles s).foldl (fun w h => Storage.release h w) w

end Plan

end RowStore
