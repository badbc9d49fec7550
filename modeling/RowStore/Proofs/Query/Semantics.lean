import RowStore.Proofs.Database.Serving
import RowStore.Proofs.Query.Regularity
import RowStore.Proofs.Query.Scanning

/-!
# Cursors play what plans evaluate to

Opening the cursor of a plan has one of the results that the plan evaluates to, and the cursor then
plays the answers (`Plan.opensAlike`).  The world may be any that serves the pages of the tables
(`Service`), with room for one handle per table scan in the plan.

The proof is an induction over the plan.  The operators were dealt with one by one; what is added
here is the footprint of a whole plan.
-/

namespace RowStore

namespace Plan

variable {W : Type} [Storage W]

/-! ## Footprints -/

/-- The number of table scans in a plan. -/
def scans : Plan → ℕ
  | rows _ _ => 0
  | scan _ => 1
  | filter _ child => child.scans
  | join _ left right => left.scans + right.scans
  | aggregate _ child => child.scans

/-- The handles that the cursor of a plan holds. -/
def footprint : (p : Plan) → Footprint p.State
  | rows _ _ => (Footprint.nothing ℕ).lookahead
  | scan _ => .table
  | filter _ child => child.footprint.lookahead
  | join _ left right => (left.footprint.join right.footprint).lookahead
  | aggregate _ child => child.footprint.aggregation.lookahead

lemma need_footprint (p : Plan) : p.footprint.need = p.scans := by
  induction p with
  | rows schema list => rfl
  | scan t => rfl
  | filter predicate child ih => exact ih
  | join predicate left right ihl ihr => exact congrArg₂ (· + ·) ihl ihr
  | aggregate a child ih => exact ih

lemma held_footprint (p : Plan) (s : p.State) :
    p.footprint.held s = (p.handles s : Multiset _) := by
  induction p with
  | rows schema list => rfl
  | scan t => rfl
  | filter predicate child ih => exact ih _
  | join predicate left right ihl ihr =>
    refine (congrArg₂ (· + ·) (ihl _) (ihr _)).trans ?_
    exact Multiset.coe_add _ _
  | aggregate a child ih => exact ih _

lemma handles_initial (p : Plan) : p.handles p.initial = [] := by
  induction p with
  | rows schema list => rfl
  | scan t => rfl
  | filter predicate child ih => exact ih
  | join predicate left right ihl ihr => exact List.append_eq_nil_iff.2 ⟨ihl, ihr⟩
  | aggregate a child ih => exact ih

/-! ## Opening -/

variable (v : Service W)

lemma tidies (p : Plan) (orders : p.Orders W) : v.Tidies p.footprint (p.cursor orders).close := by
  induction p with
  | rows schema list =>
    exact Service.Tidies.lookahead fun s R w hw => ⟨list.length, w, rfl, hw⟩
  | scan t => exact Service.tidies_table t
  | filter predicate child ih => exact Service.Tidies.lookahead (ih orders)
  | join predicate left right ihl ihr =>
    exact Service.Tidies.lookahead (Service.Tidies.join (ihl orders.1) (ihr orders.2))
  | aggregate a child ih =>
    exact Service.Tidies.lookahead (Service.Tidies.aggregation (ih orders.2))

/-- Opening the cursor of a plan has one of the results that the plan evaluates to, and what the
cursor plays then does not depend on what is refused. -/
lemma opensAlike (p : Plan) (orders : p.Orders W) (h : p.Available v.catalog v.disk) :
    v.OpensAlike p.footprint (p.cursor orders) (p.Evaluates v.catalog v.disk) := by
  induction p with
  | rows schema list =>
    refine ((Service.opensFeedAlike_rows list).opensAlike fun s R w hw => ?_).mono ?_
    · exact ⟨list.length, w, rfl, hw⟩
    · rintro _ rfl
      exact .rows
  | scan t =>
    obtain ⟨file, list, hfile, hshape, hlist⟩ := h
    obtain ⟨pages, hcount, hread, rfl⟩ := HeapFile.contents_eq_ok_iff.1 hlist
    have hid : file.id = t.table := v.id_eq hfile
    have hstores : v.Stores file pages := ⟨hid ▸ hfile, hcount, hread⟩
    refine (hstores.opensAlike_table hfile hshape).mono ?_
    rintro _ rfl
    exact .scan hfile hlist
  | filter predicate child ih =>
    refine (((ih orders h).filter (child.finite_cursor orders) predicate.test).opensAlike
      (child.tidies v orders)).mono ?_
    rintro _ ⟨below, hbelow, rfl⟩
    exact .filter hbelow
  | join predicate left right ihl ihr =>
    refine ((Service.OpensAlike.join (ihl orders.1 h.1) (ihr orders.2 h.2)).opensAlike
      (.join (left.tidies v orders.1) (right.tidies v orders.2))).mono ?_
    rintro _ (⟨e, hleft, rfl⟩ | ⟨answers, below, hleft, hright, rfl⟩)
    · exact .join_left hleft
    · exact .join hleft hright
  | aggregate a child ih =>
    refine (((ih orders.2 h).aggregation (child.finite_cursor orders.2) a orders.1).opensAlike
      (.aggregation (child.tidies v orders.2))).mono ?_
    rintro _ ⟨below, hbelow, ⟨list, arranged, hlist, hperm, rfl⟩ | ⟨e, hfailed, rfl⟩⟩
    · exact .aggregate hbelow hlist hperm
    · exact .aggregate_failed hbelow hfailed

/-- A schema with one column of integers. -/
def numbers : Schema := ⟨[⟨.int, none⟩], by decide⟩

/-- A file of rows with one integer, two on a page. -/
def numbersFile : HeapFile where
  id := ⟨0⟩
  path := "/numbers"
  schema := numbers
  layout := ⟨8, 4, by decide⟩
  rowSize_eq := rfl
  valid := by decide

/-- A database with one frame, and a file with one page that holds 7 and 9. -/
def numbersDatabase : Database where
  config := ⟨8, 1⟩
  disk := ⟨[], Assoc.insert ∅ "/numbers" (.file (.ofList [0, 0, 0, 3, 0, 0, 0, 7, 0, 0, 0, 9]))⟩
  catalog := Catalog.empty.add numbersFile "numbers"
  pool := .ofFrames 1

lemma contents_numbersFile : numbersFile.contents numbersDatabase.disk =
    .ok [⟨numbers, [some (.int 7)], some ⟨⟨⟨0⟩, 0⟩, 0⟩⟩,
      ⟨numbers, [some (.int 9)], some ⟨⟨⟨0⟩, 0⟩, 1⟩⟩] := rfl

end Plan

end RowStore
