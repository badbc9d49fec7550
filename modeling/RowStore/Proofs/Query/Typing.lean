import RowStore.Proofs.Database.Reregistration
import RowStore.Proofs.Query.Lifecycle

/-!
# Well-typed plans

A plan is *well typed* (`Plan.WellTyped`) if its rows in memory match their schemas, its predicates
compare fields that there are with values of the same kind, and its aggregations were accepted for
the schemas of their children.  The schemas of joins and aggregations are computed, so what has to
be seen is that the rows which are put together keep in step with them: columns of a right child
move behind those of the left one, and an aggregation has the column by which it groups, with its
type, and one of integers.

That well-typed plans do not go wrong (`Plan.wellTyped_goesRight`) is then a matter of one more
regime (`Company.typing`), in which rows conform if they match the types of their columns, and no
failure is about a broken contract or a type.  Tables enter by what is kept of them: as long as a
table is registered in the shape of a scan, its resident pages have been decoded in this shape, and
so the scan can neither refuse to open nor hand out other rows.  At first this is so because cache
and catalog agree.
-/

namespace RowStore

/-! ## Rows and fields -/

/-- A field of a row that matches some types. -/
lemma Row.Matches.get {shape : List ColumnType} {r : Row} (h : r.Matches shape) {index : ℕ}
    {ty : ColumnType} (hindex : shape[index]? = some ty) :
    ∃ v : Value, r.get index = .ok (some v) ∧ v.fits ty = true := by
  obtain ⟨hlt, hty⟩ := List.getElem?_eq_some_iff.1 hindex
  have hlt' : index < r.fields.length := h.length_eq ▸ hlt
  obtain ⟨v, hfield, hfits⟩ := (List.forall₂_iff_get.1 h).2 index hlt hlt'
  refine ⟨v, ?_, hty ▸ hfits⟩
  have hget : r.fields[index]? = some (some v) := List.getElem?_eq_some_iff.2 ⟨hlt', hfield⟩
  rw [Row.get, hget]

/-- Rows side by side. -/
lemma Row.Matches.append {s t : Schema} {l r : Row} (hl : l.Matches s.shape)
    (hr : r.Matches t.shape) :
    ∃ row, Row.append (s.append t) l r = .ok row ∧ row.Matches (s.append t).shape := by
  have hwidth : l.width + r.width = (s.append t).width := by
    rw [hl.width_eq, hr.width_eq]
    exact List.length_append.symm
  refine ⟨⟨s.append t, l.fields ++ r.fields, none⟩, by rw [Row.append, if_pos hwidth], ?_⟩
  rw [Schema.shape_append]
  exact List.rel_append hl hr

/-- Values of the same kind compare. -/
lemma Value.exists_test {a b : Value} {ty ty' : ColumnType} (ha : a.fits ty = true)
    (hb : b.fits ty' = true) (hkind : ty.isText = ty'.isText) (op : Comparison) :
    ∃ passed, a.test op b = .ok passed := by
  rcases a with m | s <;> rcases b with n | t <;> rcases ty with _ | _ <;> rcases ty' with _ | _ <;>
    first
      | exact ⟨_, rfl⟩
      | exact absurd ha Bool.false_ne_true
      | exact absurd hb Bool.false_ne_true
      | exact absurd hkind Bool.false_ne_true
      | exact absurd hkind.symm Bool.false_ne_true

lemma Predicate.exists_test {p : Predicate} {r : Row} {shape : List ColumnType}
    (hr : r.Matches shape) {ty : ColumnType} (hfield : shape[p.field]? = some ty)
    (hoperand : p.operand.fits ty = true) : ∃ passed, p.test r = .ok passed := by
  obtain ⟨v, hget, hv⟩ := hr.get hfield
  obtain ⟨passed, htest⟩ := Value.exists_test hv hoperand rfl p.op
  refine ⟨passed, ?_⟩
  rw [test, hget]
  exact congrArg liftError htest

lemma JoinPredicate.exists_test {p : JoinPredicate} {l r : Row} {shape shape' : List ColumnType}
    (hl : l.Matches shape) (hr : r.Matches shape') {ty ty' : ColumnType}
    (hleft : shape[p.left]? = some ty) (hright : shape'[p.right]? = some ty')
    (hkind : ty.isText = ty'.isText) : ∃ passed, p.test l r = .ok passed := by
  obtain ⟨v, hgetL, hv⟩ := hl.get hleft
  obtain ⟨v', hgetR, hv'⟩ := hr.get hright
  obtain ⟨passed, htest⟩ := Value.exists_test hv hv' hkind p.op
  refine ⟨passed, ?_⟩
  rw [test, hgetL, hgetR]
  exact congrArg liftError htest

/-! ## Aggregations -/

/-- The values of a group are of some types. -/
def GroupKey.Fits (types : List ColumnType) (key : GroupKey) : Prop :=
  List.Forall₂ (fun ty v => Value.fits v ty = true) types key.values

/-- The row for a group. -/
lemma GroupKey.Fits.exists_toRow {types : List ColumnType} {key : GroupKey} (h : key.Fits types)
    {schema : Schema} (hschema : schema.shape = types ++ [.int]) (result : Int32) :
    ∃ row, key.toRow schema result = .ok row ∧ row.Matches schema.shape := by
  have hfits : List.Forall₂ (fun ty v => Value.fits v ty = true) schema.shape
      (key.values ++ [.int result]) := by
    rw [hschema]
    exact List.rel_append h (.cons rfl .nil)
  have hlength : (key.values ++ [Value.int result]).length = schema.width := by
    rw [← hfits.length_eq, Schema.length_shape]
  refine ⟨⟨schema, (key.values ++ [Value.int result]).map some, none⟩, ?_, ?_⟩
  · rw [toRow, Row.ofValues, if_pos hlength]
  · exact List.forall₂_map_right_iff.2 (hfits.imp fun ty v hv => ⟨v, rfl, hv⟩)

/-- One row per group can be made if every row can be. -/
lemma exists_results {κ : Type} {whole : Except Failure Row} {entries : List κ}
    {row : κ → Except Failure Row} {condition : Prop} [Decidable condition] {P : Row → Prop}
    (hwhole : condition → ∃ r, whole = .ok r ∧ P r)
    (hrow : ∀ entry ∈ entries, ∃ r, row entry = .ok r ∧ P r) :
    ∃ rows, (if condition then do return [← whole] else entries.mapM row) = .ok rows ∧
      ∀ r ∈ rows, P r := by
  split
  · next hcondition =>
    obtain ⟨r, hr, hP⟩ := hwhole hcondition
    exact ⟨[r], by rw [hr]; rfl, fun r' h => List.mem_singleton.1 h ▸ hP⟩
  · rcases hrows : entries.mapM row with e | rows
    · obtain ⟨entry, hmem, hfail⟩ := exists_of_mapM_eq_error hrows
      obtain ⟨r, hr, -⟩ := hrow entry hmem
      cases hfail.symm.trans hr
    · refine ⟨rows, rfl, fun r hr => ?_⟩
      obtain ⟨entry, hmem, hmade⟩ := mem_of_mapM_eq_ok hrows hr
      obtain ⟨r', hr', hP⟩ := hrow entry hmem
      cases hmade.symm.trans hr'
      exact hP

/-- The groups of which an aggregator has a tally. -/
def Aggregator.keys : Aggregator → List GroupKey
  | numbers a => a.groups.keys
  | texts a => a.counts.keys

lemma Assoc.mem_keys_insert {κ ν : Type} [DecidableEq κ] {m : Assoc κ ν} {k j : κ} {v : ν}
    (h : j ∈ (m.insert k v).keys) : j = k ∨ j ∈ m.keys := by
  rw [mem_keys_iff, find?_insert] at h
  obtain ⟨v', h⟩ := h
  split at h
  · next heq => exact .inl heq.symm
  · exact .inr ((m.mem_keys_iff j).2 ⟨v', h⟩)

lemma Aggregator.mem_keys_put {x : Aggregator} {e : GroupKey × Int32} {key : GroupKey}
    (h : key ∈ (x.put e).keys) : key = e.1 ∨ key ∈ x.keys := by
  rcases x with a | a <;> exact Assoc.mem_keys_insert h

namespace Aggregation

/-- The types of the values by which rows are grouped. -/
def keyTypes (a : Aggregation) (input : Schema) : List ColumnType :=
  match a.group with
  | none => []
  | some index => (input.shape[index]?).toList

/-- An aggregation was made for rows of a schema. -/
structure Accepts (a : Aggregation) (input : Schema) : Prop where
  field : input.shape[a.field]? = some a.type
  group_lt : ∀ index, a.group = some index → index < input.width
  supported : ∃ initial, a.aggregator = .ok initial
  shape_eq : a.schema.shape = a.keyTypes input ++ [.int]

lemma shape_of_column {input : Schema} {index : ℕ} {c : Column} (h : input.column index = .ok c) :
    input.shape[index]? = some c.type := by
  rw [Schema.column] at h
  split at h
  · next hc =>
    cases h
    rw [Schema.shape, List.getElem?_map, hc]
    rfl
  · cases h

lemma accepts_of_ofSchema {input : Schema} {field : ℕ} {group : Option ℕ} {op : AggregateOp}
    {a : Aggregation} (h : ofSchema input field group op = .ok a) : a.Accepts input := by
  have hrange := inRange_of_ofSchema h
  obtain ⟨column, initial, hcolumn, -, ⟨rfl, rfl⟩ | ⟨index, key, rfl, hkey, rfl⟩⟩ :=
    ofSchema_eq_ok h
  · exact ⟨shape_of_column hcolumn, hrange.group_lt, hrange.supported, rfl⟩
  · refine ⟨shape_of_column hcolumn, hrange.group_lt, hrange.supported, ?_⟩
    show [key.type, .int] = (input.shape[index]?).toList ++ [.int]
    rw [shape_of_column hkey]
    rfl

namespace Accepts

variable {a : Aggregation} {input : Schema} {r : Row} (h : a.Accepts input)

include h

/-- Every row has a group. -/
lemma exists_key (hr : r.Matches input.shape) :
    ∃ key, GroupKey.of r a.group = .ok key ∧ key.Fits (a.keyTypes input) := by
  rcases hgroup : a.group with _ | index
  · refine ⟨.whole, rfl, ?_⟩
    rw [keyTypes, hgroup]
    exact .nil
  · have hlt : index < input.shape.length := Schema.length_shape input ▸ h.group_lt index hgroup
    have hcolumn := List.getElem?_eq_getElem hlt
    obtain ⟨v, hget, hv⟩ := hr.get hcolumn
    refine ⟨.value v, ?_, ?_⟩
    · rw [GroupKey.of, hget]
      rfl
    · rw [keyTypes, hgroup]
      show List.Forall₂ _ (input.shape[index]?).toList [v]
      rw [hcolumn]
      exact .cons hv .nil

/-- Every row can be taken in. -/
lemma exists_entry (hr : r.Matches input.shape) :
    ∃ e, a.entry r = .ok e ∧ e.1.Fits (a.keyTypes input) := by
  obtain ⟨key, hkey, hfits⟩ := h.exists_key hr
  obtain ⟨v, hget, hv⟩ := hr.get h.field
  rcases htype : a.type with _ | capacity
  · rcases v with n | text
    · exact ⟨(key, n), by rw [entry, htype, hget, hkey]; rfl, hfits⟩
    · rw [htype] at hv
      exact absurd hv Bool.false_ne_true
  · exact ⟨(key, 0), by rw [entry, htype, hkey]; rfl, hfits⟩

/-- The results of an aggregator whose groups have values of the right types. -/
lemma exists_results {x : Aggregator} (hx : x.For a)
    (hkeys : ∀ key ∈ x.keys, key.Fits (a.keyTypes input)) :
    ∃ rows, x.results = .ok rows ∧ ∀ row ∈ rows, row.Matches a.schema.shape := by
  have hwhole : a.group = none →
      ∃ row, GroupKey.whole.toRow a.schema 0 = .ok row ∧ row.Matches a.schema.shape := by
    intro hgroup
    refine GroupKey.Fits.exists_toRow ?_ h.shape_eq 0
    rw [keyTypes, hgroup]
    exact .nil
  rcases x with ⟨group, field, op, schema, groups, merged⟩ | ⟨group, schema, counts, merged⟩
  · obtain ⟨-, hgroup, -, -, hschema⟩ := hx
    obtain rfl : schema = a.schema := hschema
    obtain rfl : group = a.group := hgroup
    exact RowStore.exists_results (fun hnone => hwhole hnone.1) fun e he =>
      (hkeys e.1 (List.mem_map_of_mem he)).exists_toRow h.shape_eq _
  · obtain ⟨-, hgroup, -, hschema⟩ := hx
    obtain rfl : schema = a.schema := hschema
    obtain rfl : group = a.group := hgroup
    exact RowStore.exists_results (fun hnone => hwhole hnone.1) fun e he =>
      (hkeys e.1 (List.mem_map_of_mem he)).exists_toRow h.shape_eq _

end Accepts

end Aggregation

/-! ## Plans -/

/-- As long as a condition on catalogs and disks is kept, the table of a scan is registered in the
shape of the scan. -/
def TableScan.Registered (Kept : Catalog → Disk → Prop) (t : TableScan) : Prop :=
  ∀ c d, Kept c d → ∃ file, c.heapFile t.table = .ok file ∧ file.schema.shape = t.schema.shape

namespace Plan

/-- The rows of a plan match their schemas, the tables are registered in the right shape as long as
a condition is kept, predicates compare fields that there are with values of the same kind, and
aggregations were made for their inputs. -/
def WellTyped (Kept : Catalog → Disk → Prop) : Plan → Prop
  | rows schema list => ∀ row ∈ list, row.Matches schema.shape
  | scan t => t.Registered Kept
  | filter predicate child => child.WellTyped Kept ∧
    ∃ ty, child.schema.shape[predicate.field]? = some ty ∧ predicate.operand.fits ty = true
  | join predicate left right => left.WellTyped Kept ∧ right.WellTyped Kept ∧
    ∃ ty ty', left.schema.shape[predicate.left]? = some ty ∧
      right.schema.shape[predicate.right]? = some ty' ∧ ty.isText = ty'.isText
  | aggregate a child => child.WellTyped Kept ∧
    ∃ field group op, Aggregation.ofSchema child.schema field group op = .ok a

end Plan

namespace Regime

variable {W : Type} [Storage W]

/-- Rows conform if their values are of the types of the columns. -/
structure Typing (G : Regime W) (Kept : Catalog → Disk → Prop) : Prop where
  conforms_iff : ∀ {schema row}, G.Conforms schema row ↔ row.Matches schema.shape
  scans : ∀ {t : TableScan}, t.Registered Kept → G.Scans t

namespace Typing

variable {G : Regime W} {Kept : Catalog → Disk → Prop} (hG : G.Typing Kept)

include hG

lemma aggregates {a : Aggregation} {input : Schema} (ha : a.Accepts input) :
    G.Aggregates a input fun x => x.For a ∧ ∀ key ∈ x.keys, key.Fits (a.keyTypes input) where
  aggregator := by
    obtain ⟨initial, hinitial⟩ := ha.supported
    rw [hinitial]
    refine fun _ => ⟨Aggregator.for_aggregator hinitial, fun key hkey => ?_⟩
    obtain ⟨-, rfl⟩ | ⟨-, -, rfl⟩ := Aggregator.eq_of_aggregator hinitial <;> cases hkey
  merge := by
    rintro x row ⟨hx, hkeys⟩ hrow
    obtain ⟨e, hentry, he⟩ := ha.exists_entry (hG.conforms_iff.1 hrow)
    rw [hx.merge, hentry]
    refine fun _ => ⟨hx.put e, fun key hkey => ?_⟩
    obtain rfl | hold := Aggregator.mem_keys_put hkey
    · exact he
    · exact hkeys key hold
  results := by
    rintro x ⟨hx, hkeys⟩
    obtain ⟨rows, hrows, hmatches⟩ := ha.exists_results hx hkeys
    rw [hrows]
    exact fun _ row hrow => hG.conforms_iff.2 (hmatches row hrow)

/-- Well-typed plans suit the regime. -/
lemma suits {p : Plan} (hp : p.WellTyped Kept) : p.Suits G := by
  induction p with
  | rows schema list => exact fun row hrow => hG.conforms_iff.2 (hp row hrow)
  | scan t => exact hG.scans hp
  | filter predicate child ih =>
    obtain ⟨hchild, ty, hfield, hoperand⟩ := hp
    refine ⟨ih hchild, fun row hrow => ?_⟩
    obtain ⟨passed, htest⟩ := Predicate.exists_test (hG.conforms_iff.1 hrow) hfield hoperand
    rw [htest]
    exact fun _ => trivial
  | join predicate left right ihl ihr =>
    obtain ⟨hleft, hright, ty, ty', hl, hr, hkind⟩ := hp
    refine ⟨ihl hleft, ihr hright, fun l r hlrow hrrow => ?_⟩
    have hlmatches := hG.conforms_iff.1 hlrow
    have hrmatches := hG.conforms_iff.1 hrrow
    obtain ⟨passed, htest⟩ := JoinPredicate.exists_test hlmatches hrmatches hl hr hkind
    obtain ⟨row, happend, hrow⟩ := hlmatches.append hrmatches
    rw [htest, happend]
    exact ⟨fun _ => trivial, fun _ => hG.conforms_iff.2 hrow⟩
  | aggregate a child ih =>
    obtain ⟨hchild, field, group, op, hmade⟩ := hp
    exact ⟨ih hchild, _, hG.aggregates (Aggregation.accepts_of_ofSchema hmade)⟩

end Typing

end Regime

/-! ## A company that keeps the tables -/

lemma Error.IsOfStorage.not_isOfQuery {e : Error} (he : e.IsOfStorage) :
    ¬ (Failure.error e).IsOfQuery := by
  cases e <;> first | exact id | exact he.elim

/-- The deed does not register a table past its resident pages. -/
def Deed.DropsPages : Deed → Prop
  | .manage e _ => e.DropsPages
  | _ => True

/-- Whatever the database is, the deed keeps a condition on its catalog and its disk. -/
def Deed.Keeps (Kept : Catalog → Disk → Prop) (d : Deed) : Prop :=
  ∀ y : Company, Kept y.db.catalog y.db.disk → Kept (y.act d).db.catalog (y.act d).db.disk

namespace Company

/-- As long as tables are only registered by opening them, cache and catalog agree. -/
lemma coherent_of_dropsPages (config : Config) (disk : Disk) {deeds : List Deed}
    (hdeeds : ∀ d ∈ deeds, d.DropsPages) :
    Database.Coherent config.poolPages ((onDisk config disk).run deeds).db := by
  suffices key : ∀ y : Company, Database.Coherent config.poolPages y.db →
      Database.Coherent config.poolPages (y.run deeds).db from key _ (.onDisk config disk)
  induction deeds with
  | nil => exact fun y hy => hy
  | cons d rest ih =>
    rw [List.forall_mem_cons] at hdeeds
    refine fun y hy => ih hdeeds.2 (y.act d) ?_
    cases d with
    | take page =>
      have hact := hy.act (e := .getPage page) trivial
      rw [Database.act] at hact
      rcases hget : y.db.getPage page with ⟨_ | _, db⟩ <;> rw [hget] at hact <;>
        simpa only [act, hget] using hact
    | giveBack place =>
      rcases hplace : y.kept[place]? with _ | h <;> simp only [act, hplace]
      · exact hy
      · exact hy.act (e := .release h) trivial
    | manage e he => exact hy.act hdeeds.1

/-- The rows of resident pages have the types of the scans whose tables are registered as long as a
condition is kept. -/
def RowsMatch (Kept : Catalog → Disk → Prop) (y : Company) : Prop :=
  ∀ ⦃t : TableScan⦄, t.Registered Kept → ∀ ⦃page frame h⦄, page.table = t.table →
    y.db.pool.lookup page = some (frame, h) → ∀ row ∈ h.content.rows, row.Matches t.schema.shape

/-- So it is if cache and catalog agree. -/
lemma rowsMatch_of_coherent {count : ℕ} {Kept : Catalog → Disk → Prop} {y : Company}
    (hy : Database.Coherent count y.db) (hkept : Kept y.db.catalog y.db.disk) :
    y.RowsMatch Kept := by
  intro t ht page frame h htable hfound row hrow
  obtain ⟨file, hfile, hshape⟩ := ht _ _ hkept
  obtain ⟨data, hdecode⟩ := hy.decoded hfound (htable ▸ hfile)
  exact hshape ▸ (Page.decode_matches hdecode row hrow).2

/-- The database is sound, a condition on its catalog and its disk is kept, and the rows of its
resident pages match. -/
structure Steady (count : ℕ) (Kept : Catalog → Disk → Prop) (y : Company) : Prop where
  sound : Database.Sound count y.db
  kept : Kept y.db.catalog y.db.disk
  resident : y.RowsMatch Kept

namespace Steady

variable {count : ℕ} {Kept : Catalog → Disk → Prop} {y : Company}

/-- The page of a table that is scanned, when it is loaded. -/
lemma loadPage (hy : y.Steady count Kept) {t : TableScan} (ht : t.Registered Kept) {page : PageId}
    (htable : page.table = t.table) {content : Page} (hload : y.db.loadPage page = .ok content) :
    ∀ row ∈ content.rows, row.Matches t.schema.shape := by
  obtain ⟨file, hfile, hshape⟩ := ht _ _ hy.kept
  obtain ⟨file', hfile', hread⟩ := Database.exists_readPage_of_loadPage hload
  cases (htable ▸ hfile).symm.trans hfile'
  obtain ⟨data, hdecode⟩ := HeapFile.exists_decode_of_readPage hread
  exact fun row hrow => hshape ▸ (Page.decode_matches hdecode row hrow).2

/-- An event after which the condition is still kept. -/
lemma event (hy : y.Steady count Kept) (e : Database.Event) (kept : List (Handle Page))
    (hkept : Kept (y.db.act e).catalog (y.db.act e).disk) :
    Steady count Kept ⟨y.db.act e, kept⟩ := by
  have hsound := hy.sound.act e
  have houtcome := Database.outcome hy.sound.pool e
  refine ⟨hsound, hkept, fun {t} ht page frame h htable hfound => ?_⟩
  change (y.db.act e).pool.lookup page = some (frame, h) at hfound
  generalize y.db.act e = db' at houtcome hfound
  cases houtcome with
  | opened _ hopen =>
    obtain ⟨-, rfl⟩ := Database.openTable_eq_ok hopen
    rw [hy.sound.pool.lookup_discardTable] at hfound
    exact hy.resident ht htable (Option.ite_none_left_eq_some.1 hfound).2
  | added | forgotten | written => exact hy.resident ht htable hfound
  | pooled _ hpool =>
    obtain hold | ⟨-, hload⟩ := hpool hfound
    · exact hy.resident ht htable hold
    · exact hy.loadPage ht htable hload

/-- The deed of another client. -/
lemma act (hy : y.Steady count Kept) {d : Deed} (hd : d.Keeps Kept) :
    (y.act d).Steady count Kept := by
  have hkept := hd y hy.kept
  cases d with
  | take page =>
    have hevent := fun kept => hy.event (.getPage page) kept
    rw [Database.act] at hevent
    rcases hget : y.db.getPage page with ⟨_ | h, db⟩ <;> rw [hget] at hevent <;>
      simp only [Company.act, hget] at hkept ⊢
    · exact hevent y.kept hkept
    · exact hevent (h :: y.kept) hkept
  | giveBack place =>
    rcases hplace : y.kept[place]? with _ | h <;> simp only [Company.act, hplace] at hkept ⊢
    · exact hy
    · exact hy.event (.release h) _ hkept
  | manage e _ => exact hy.event e y.kept hkept

lemma run (hy : y.Steady count Kept) {deeds : List Deed} (h : ∀ d ∈ deeds, d.Keeps Kept) :
    (y.run deeds).Steady count Kept := by
  induction deeds generalizing y with
  | nil => exact hy
  | cons d rest ih =>
    rw [List.forall_mem_cons] at h
    exact ih (hy.act h.1) h.2

lemma release (hy : y.Steady count Kept) (h : Handle Page) :
    (Storage.release h y).Steady count Kept :=
  hy.event (.release h) y.kept hy.kept

/-- A request does not fail for a reason of queries, and the rows of a page of a table that is
scanned have the types of the scan. -/
lemma request (hy : y.Steady count Kept) (page : PageId) :
    (∃ e y', Storage.request page .readOnly y = (.error e, y') ∧
        ¬ (Failure.error e).IsOfQuery ∧ y'.Steady count Kept) ∨
      ∃ h y', Storage.request page .readOnly y = (.ok h, y') ∧ y'.Steady count Kept ∧
        ∀ t : TableScan, t.Registered Kept → page.table = t.table →
          ∀ row ∈ h.content.rows, row.Matches t.schema.shape := by
  obtain ⟨answer, pool, heq, hrequested⟩ := Database.getPage_requested hy.sound.pool page
  have hsteady : Steady count Kept ⟨{ y.db with pool := pool }, y.kept⟩ := by
    have hevent := hy.event (.getPage page) y.kept
    rw [Database.act, heq] at hevent
    exact hevent hy.kept
  rcases answer with e | h
  · refine .inl ⟨e, _, request_eq heq, ?_, hsteady⟩
    obtain ⟨-, hload | ⟨rfl, -⟩⟩ := hrequested.refused
    · exact (Database.isOfStorage_of_loadPage hload).not_isOfQuery
    · exact id
  · refine .inr ⟨h, _, request_eq heq, hsteady, fun t ht htable => ?_⟩
    obtain ⟨frame, hfound⟩ | ⟨-, hload⟩ := hrequested.content
    · exact hy.resident ht htable hfound
    · exact hy.loadPage ht htable hload

end Steady

/-- A watched company that is steady, and stays so whatever others do. -/
structure Quiet (count : ℕ) (Kept : Catalog → Disk → Prop) (x : Watched Company) : Prop where
  steady : x.world.Steady count Kept
  meanwhile : ∀ n {y}, Steady count Kept y → Steady count Kept (x.meanwhile n y)

lemma quiet_during {count : ℕ} {Kept : Catalog → Disk → Prop} {y : Company}
    (hy : y.Steady count Kept) {meanwhile : ℕ → List Deed}
    (hmeanwhile : ∀ n, ∀ d ∈ meanwhile n, d.Keeps Kept) : Quiet count Kept (y.during meanwhile) :=
  ⟨hy, fun n _ hy => hy.run (hmeanwhile n)⟩

/-- In a company that keeps the tables, rows have the types of their columns, and no call fails for
a reason of queries. -/
def typing (count limit : ℕ) (Kept : Catalog → Disk → Prop) : Regime (Watched Company) where
  limit := limit
  Good _ x := Quiet count Kept x
  Fault e _ := ¬ e.IsOfQuery
  Conforms schema row := row.Matches schema.shape
  Scans t := t.Registered Kept
  File t file := file.id = t.table
  fault_notOpen _ _ := id
  fault_exhausted _ := id
  fault_release _ h := h
  file {_ _} hx {_ _} _ hfile := hx.steady.sound.id_eq hfile
  heapFile {_ _} _ {_ _} _ h := (Catalog.isOfStorage_of_heapFile h).not_isOfQuery
  shape {_ _} hx {_ _} ht hfile hne := by
    obtain ⟨file, hfile', hshape⟩ := ht _ _ hx.steady.kept
    cases hfile.symm.trans hfile'
    exact absurd hshape hne
  pageCount {_ _} _ {_ _} h := (HeapFile.isOfStorage_of_pageCount h).not_isOfQuery
  request {_ x} hx _ page := by
    have hbefore := hx.meanwhile x.requests.length hx.steady
    obtain ⟨e, y, hrequest, he, hy⟩ | ⟨h, y, hrequest, hy, hrows⟩ := hbefore.request page
    · exact .inl ⟨e, _, Watched.request_eq hrequest, he, hy, hx.meanwhile⟩
    · exact .inr ⟨h, _, Watched.request_eq hrequest, ⟨hy, hx.meanwhile⟩,
        fun t file ht hfile hpage => hrows t ht (hpage.trans hfile)⟩
  release hx := ⟨hx.steady.release _, hx.meanwhile⟩

lemma typing_typing (count limit : ℕ) (Kept : Catalog → Disk → Prop) :
    (typing count limit Kept).Typing Kept where
  conforms_iff := Iff.rfl
  scans h := h

end Company

/-- The result that is read from the figures of a group, with a division that fails for zero. -/
def Tally.result? (t : Tally) (op : AggregateOp) : Option Int32 :=
  if t.count = 0 then some 0
  else
    match op with
    | .count => some t.count
    | .sum => some t.sum
    | .avg => divide t.sum t.count
    | .min => some t.least
    | .max => some t.greatest
where
  /-- The quotient, unless the divisor is zero. -/
  divide (a b : Int32) : Option Int32 := if b = 0 then none else some (a / b)

/-- Nothing is divided by zero. -/
lemma Tally.result?_eq (t : Tally) (op : AggregateOp) : t.result? op = some (t.result op) := by
  by_cases hcount : t.count = 0
  · simp only [result?, result, hcount, if_true]
  · simp only [result?, result, result?.divide, hcount, if_false]
    cases op <;> rfl

namespace Plan

/-- From this state a plan does not go wrong.  No call on its cursor, and no draining, fails by a
broken contract, a value of the wrong type or a function that there is not; and the rows that it
hands out have the fields of its schema, all set to values of the types of the columns. -/
structure GoesRight (p : Plan) (orders : p.Orders (Watched Company)) (s : p.State)
    (x : Watched Company) : Prop where
  call : ∀ act e, (p.cursor orders).failure? act s x = some e → ¬ e.IsOfQuery
  next : ∀ row s' x', (p.cursor orders).next s x = (.ok row, s', x') →
    row.width = p.schema.width ∧ row.Matches p.schema.shape
  drain_error : ∀ e s' x', p.drain orders s x = (.error e, s', x') → ¬ e.IsOfQuery
  drain_ok : ∀ rows s' x', p.drain orders s x = (.ok rows, s', x') →
    ∀ row ∈ rows, row.width = p.schema.width ∧ row.Matches p.schema.shape

section

variable {Kept : Catalog → Disk → Prop} {p : Plan} {s s₀ : p.State} {y y₀ : Company} {count : ℕ}

/-- A plan that is well typed, in a state that is in order, in a company that keeps the tables. -/
structure Typed (count : ℕ) (Kept : Catalog → Disk → Prop) (p : Plan) (s : p.State) (y : Company) :
    Prop where
  wellTyped : p.WellTyped Kept
  tidy : p.Tidy (Company.typing count p.scans Kept) s
  steady : y.Steady count Kept

namespace Typed

lemma governs (h : p.Typed count Kept s y) (orders : p.Orders (Watched Company)) :
    (Company.typing count p.scans Kept).Governs p.footprint
      (p.Tidy (Company.typing count p.scans Kept)) p.Shut
      (fun row => row.Matches p.schema.shape) (p.cursor orders) :=
  governed orders ((Company.typing_typing count p.scans Kept).suits h.wellTyped)

lemma call (h : p.Typed count Kept s y) (orders : p.Orders (Watched Company)) (act : Cursor.Act)
    {meanwhile : ℕ → List Deed} (hmeanwhile : ∀ n, ∀ d ∈ meanwhile n, d.Keeps Kept) :
    p.Typed count Kept ((p.cursor orders).act act s (y.during meanwhile)).1
      ((p.cursor orders).act act s (y.during meanwhile)).2.world := by
  obtain ⟨htidy, hquiet, -⟩ := (h.governs orders).act (R := 0) act (Nat.le_of_eq (need_footprint p))
    h.tidy (Company.quiet_during h.steady hmeanwhile)
  exact ⟨h.wellTyped, htidy, hquiet.steady⟩

lemma leadsTo (h : p.Typed count Kept s₀ y₀)
    (hleads : LeadsTo (Deed.Keeps Kept) p s₀ y₀ s y) : p.Typed count Kept s y := by
  induction hleads with
  | refl => exact h
  | deed _ hd ih => exact ⟨h.wellTyped, ih.tidy, ih.steady.act hd⟩
  | call _ orders act meanwhile hmeanwhile ih => exact ih.call orders act hmeanwhile

lemma goesRight (h : p.Typed count Kept s y) (orders : p.Orders (Watched Company))
    {meanwhile : ℕ → List Deed} (hmeanwhile : ∀ n, ∀ d ∈ meanwhile n, d.Keeps Kept) :
    p.GoesRight orders s (y.during meanwhile) := by
  have hquiet := Company.quiet_during h.steady hmeanwhile
  have hneed := Nat.le_of_eq (need_footprint p)
  have hnext := (h.governs orders).next (R := 0) hneed h.tidy hquiet
  have hdrain := (h.governs orders).drain (p.finite_cursor orders) (R := 0) hneed h.tidy hquiet
  refine ⟨fun act => ((h.governs orders).act (R := 0) act hneed h.tidy hquiet).2.2, ?_, ?_, ?_⟩
  · intro row s' x' heq
    obtain ⟨answer, s'', x'', heq', -, -, hallows⟩ := hnext
    cases heq.symm.trans heq'
    exact ⟨hallows.width_eq, hallows⟩
  · intro e s' x' heq
    obtain ⟨answer, s'', x'', heq', -, -, hallows⟩ := hdrain
    cases heq.symm.trans heq'
    exact hallows
  · intro rows s' x' heq row hrow
    obtain ⟨answer, s'', x'', heq', -, -, hallows⟩ := hdrain
    cases heq.symm.trans heq'
    exact ⟨(hallows row hrow).width_eq, hallows row hrow⟩

/-- The operators of a plan. -/
lemma of_mem_operators (h : p.Typed count Kept s y) {o : Σ q : Plan, q.State}
    (ho : o ∈ p.operators s) : o.1.Typed count Kept o.2 y := by
  have hall := forall_operators
    (P := fun q t => q.WellTyped Kept ∧ q.Tidy (Company.typing count p.scans Kept) t)
    (fun h => ⟨h.1.1, h.2.feed⟩)
    (fun h => ⟨⟨h.1.1, h.2.feed.left⟩, h.1.2.1, h.2.feed.right⟩)
    (fun h => ⟨h.1.1, h.2.feed.child⟩) ⟨h.wellTyped, h.tidy⟩ o ho
  exact ⟨hall.1, .mono (G := Company.typing count p.scans Kept) id id hall.2, h.steady⟩

end Typed

/-- **Well-typed plans do not go wrong.**  A database on any disk has tables, and whatever others do
they keep those that the plan scans registered in the shape for which the scans were made.  The rows
in memory match their schemas, predicates compare values of the same kind, and aggregations were
accepted.  The rows of resident pages match the scans, too, as they always do if tables were only
registered by opening them.  Then in every state to which calls on a new cursor of the plan can
lead, no operator of the plan goes wrong, neither at once nor after any further calls on it.  And no
average divides by zero. -/
theorem wellTyped_goesRight {config : Config} {disk : Disk} {deeds : List Deed}
    (hp : p.WellTyped Kept)
    (hkept : Kept ((Company.onDisk config disk).run deeds).db.catalog
      ((Company.onDisk config disk).run deeds).db.disk)
    (hresident : (∀ d ∈ deeds, d.DropsPages) ∨
      ((Company.onDisk config disk).run deeds).RowsMatch Kept)
    (h : LeadsTo (Deed.Keeps Kept) p p.initial ((Company.onDisk config disk).run deeds) s y) :
    (∀ o ∈ p.operators s, ∀ s' y', LeadsTo (Deed.Keeps Kept) o.1 o.2 y s' y' →
      ∀ (orders : o.1.Orders (Watched Company)) meanwhile,
        (∀ n, ∀ d ∈ meanwhile n, d.Keeps Kept) → o.1.GoesRight orders s' (y'.during meanwhile)) ∧
      ∀ (t : Tally) (op : AggregateOp), t.result? op = some (t.result op) := by
  have hsteady : ((Company.onDisk config disk).run deeds).Steady config.poolPages Kept :=
    { sound := ((Company.accounts_onDisk config disk).run deeds).sound
      kept := hkept
      resident := hresident.elim (fun hdeeds => Company.rowsMatch_of_coherent
        (Company.coherent_of_dropsPages config disk hdeeds) hkept) id }
  have hinitial : p.Typed config.poolPages Kept p.initial
      ((Company.onDisk config disk).run deeds) := by
    refine ⟨hp, ?_, hsteady⟩
    exact (governed .plain ((Company.typing_typing _ _ _).suits hp)).of_shut p.shut_initial
  refine ⟨fun o ho s' y' hfurther orders meanwhile hmeanwhile => ?_, Tally.result?_eq⟩
  exact (((hinitial.leadsTo h).of_mem_operators ho).leadsTo hfurther).goesRight orders hmeanwhile

end

/-- The filter that finds 7 hands out a row with one integer, as long as its table is registered. -/
theorem wellTyped_goesRight_sevens :
    ∃ s y row s' x, LeadsTo (Deed.Keeps fun c _ => ∃ file,
        c.heapFile Database.numbersTable.table = .ok file ∧ file.schema.shape = [.int])
          sevens sevens.initial sevensCompany s y ∧
      (sevens.cursor .plain).next s (y.during fun _ => []) = (.ok row, s', x) ∧
      row.fields = [some (.int 7)] ∧ row.width = 1 ∧ row.Matches [.int] := by
  let Kept : Catalog → Disk → Prop := fun c _ => ∃ file,
    c.heapFile Database.numbersTable.table = .ok file ∧ file.schema.shape = [.int]
  obtain ⟨scan₁, x₁, hask, -⟩ := hasNext_sevensOpened
  have hopened : LeadsTo (Deed.Keeps Kept) sevens sevens.initial sevensCompany sevensOpened
      sevensCompany := LeadsTo.refl.call .plain .start (fun _ => []) fun _ _ h => by cases h
  have hholding := hopened.call .plain .hasNext (fun _ => []) fun _ _ h => by cases h
  rw [Cursor.act, hask] at hholding
  have hcompany : (Company.onDisk ⟨8, 2⟩ Database.numbersDisk).run
      [.manage (.openTable "a" numbers "a") trivial] = sevensCompany :=
    congrArg (fun db => (⟨db, []⟩ : Company)) Database.run_openTable_numbers
  have hkept : Kept sevensCompany.db.catalog sevensCompany.db.disk :=
    ⟨Database.numbersOnDisk, rfl, rfl⟩
  have htyped : sevens.WellTyped Kept := ⟨fun _ _ h => h, .int, rfl, rfl⟩
  have hdeeds : ∀ d ∈ [Deed.manage (.openTable "a" numbers "a") trivial], d.DropsPages :=
    List.forall_mem_singleton.2 trivial
  have hright := (wellTyped_goesRight htyped (hcompany.symm ▸ hkept) (.inl hdeeds)
    (hcompany.symm ▸ hholding)).1 _ List.mem_cons_self _ _ .refl .plain (fun _ => [])
    fun _ _ h => by cases h
  obtain ⟨hwidth, hmatches⟩ := hright.next _ _ _ rfl
  exact ⟨_, _, _, _, _, hholding, rfl, rfl, hwidth, hmatches⟩

end Plan

end RowStore
