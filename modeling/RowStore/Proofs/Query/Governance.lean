import RowStore.Proofs.Query.Regime
import RowStore.Proofs.Query.Regularity
import RowStore.Proofs.Query.Semantics

/-!
# Plans under a regime

A plan obeys a regime if what it computes is as the regime wants it (`Plan.Suits`): its predicates
and aggregators accept the rows that they are given, and the rows that are put together conform to
the schemas.  The theorem is `Plan.governed`, an induction over the plan from one lemma per
operator.  It speaks of every state in which the cursor of the plan is in order (`Plan.Tidy`), and
closing leads to one in which it is shut (`Plan.Shut`).

Under a regime that does not look at rows there is nothing to check about a plan, as long as
computations may fail in the ways in which they do (`Regime.Indifferent.suits`).
-/

namespace RowStore

variable {W σ τ α β : Type} [Storage W]

namespace Regime

variable {G : Regime W}

/-! ## Scans -/

/-- The rows that a scan has read and not handed out yet are as its schema wants them, and its file
is one that it can be on. -/
structure Carries (G : Regime W) (t : TableScan) (s : FileScan) : Prop where
  file : G.File t s.file
  progress : ∀ p ∈ s.progress, (∀ row ∈ p.ahead, G.Conforms t.schema row) ∧
    ∀ h rows, p.current = some (h, rows) → ∀ row ∈ rows, G.Conforms t.schema row

lemma letGo {R : Multiset (Handle Page)} {s : FileScan} {w : W}
    (hw : G.Good (Footprint.file.held s + R) w) :
    G.Good R (s.letGo w) ∧ ∀ e, G.Fault e w → G.Fault e (s.letGo w) := by
  obtain ⟨file, _ | ⟨pageCount, nextPage, _ | ⟨h, rows⟩, ahead⟩⟩ := s
  · exact ⟨Multiset.zero_add R ▸ hw, fun _ he => he⟩
  · exact ⟨Multiset.zero_add R ▸ hw, fun _ he => he⟩
  · refine ⟨G.release ?_, fun _ he => G.fault_release h he⟩
    rwa [← Multiset.singleton_add, ← Multiset.coe_singleton]

section

variable {t : TableScan} (ht : G.Scans t)

include ht

/-- Making a row ready. -/
lemma advance {file : HeapFile} (hfile : G.File t file) {p : ScanProgress}
    {R : Multiset (Handle Page)} {w : W} (hR : 1 + R.card ≤ G.limit)
    (hp : G.Carries t ⟨file, some p⟩) (hw : G.Good (Footprint.file.held ⟨file, some p⟩ + R) w) :
    ∃ answer p' w', p.advance file w = (answer, p', w') ∧ G.Carries t ⟨file, some p'⟩ ∧
      G.Good (Footprint.file.held ⟨file, some p'⟩ + R) w' ∧
      G.Allows (fun _ => True) w' (liftError answer) := by
  fun_induction ScanProgress.advance file p w with
  | case1 p w h row rest hc =>
    obtain ⟨-, hrows⟩ := hp.progress p rfl
    refine ⟨_, _, w, rfl, ⟨hfile, fun q hq => ?_⟩, ?_, trivial⟩
    · cases hq
      refine ⟨fun other hother => ?_, fun _ _ hcurrent other hother => ?_⟩
      · cases hother
        exact hrows h _ hc row List.mem_cons_self
      · cases hcurrent
        exact hrows h _ hc other (List.mem_cons_of_mem _ hother)
    · simpa only [Footprint.file, FileScan.handle?, ScanProgress.handle?, hc, Option.bind_some,
        Option.map_some] using hw
  | case2 p w w₁ hlt e w₂ hr hc =>
    obtain ⟨hw₁, -⟩ := letGo (s := ⟨file, some p⟩) hw
    obtain ⟨e', w', hreq, he, hw'⟩ | ⟨h, w', hreq, -⟩ :=
      G.request hw₁ (by omega) ⟨file.id, UInt32.ofNat p.nextPage⟩
    · cases hr.symm.trans hreq
      refine ⟨_, _, w₂, rfl, ⟨hfile, fun q hq => ?_⟩, (Multiset.zero_add R).symm ▸ hw', he⟩
      cases hq
      exact ⟨(hp.progress p rfl).1, fun _ _ h => by cases h⟩
    · cases hr.symm.trans hreq
  | case3 p w w₁ hlt h w₂ hr hc ih =>
    obtain ⟨hw₁, -⟩ := letGo (s := ⟨file, some p⟩) hw
    obtain ⟨e', w', hreq, -⟩ | ⟨h', w', hreq, hw', hrows⟩ :=
      G.request hw₁ (by omega) ⟨file.id, UInt32.ofNat p.nextPage⟩
    · cases hr.symm.trans hreq
    · cases hr.symm.trans hreq
      refine ih ⟨hfile, fun q hq => ?_⟩ ?_
      · cases hq
        refine ⟨(hp.progress p rfl).1, fun _ _ hcurrent => ?_⟩
        cases hcurrent
        exact hrows t file ht hfile rfl
      · rwa [← Multiset.singleton_add, ← Multiset.coe_singleton] at hw'
  | case4 p w w₁ hge hc =>
    obtain ⟨hw₁, -⟩ := letGo (s := ⟨file, some p⟩) hw
    refine ⟨_, _, _, rfl, ⟨hfile, fun q hq => ?_⟩, (Multiset.zero_add R).symm ▸ hw₁, trivial⟩
    cases hq
    exact ⟨(hp.progress p rfl).1, fun _ _ h => by cases h⟩

lemma hasNext_file : G.Keeps .file (G.Carries t) (fun _ => True) FileScan.hasNext := by
  rintro ⟨file, _ | p⟩ R w hR hs hw
  · exact ⟨_, _, w, rfl, hs, hw, G.fault_notOpen _ w⟩
  rcases hahead : p.ahead with _ | row
  · obtain ⟨answer, p', w', hadvance, hp', hw', hallows⟩ := advance ht hs.file hR hs hw
    refine ⟨_, _, w', FileScan.hasNext_of_advance hahead hadvance, hp', hw', ?_⟩
    rcases answer with e | ⟨⟩
    · exact hallows
    · trivial
  · refine ⟨.ok true, _, w, ?_, hs, hw, trivial⟩
    simp only [FileScan.hasNext, hahead]

lemma next_file : G.Keeps .file (G.Carries t) (G.Conforms t.schema) FileScan.next := by
  intro s R w hR hs hw
  obtain ⟨found, ⟨file, progress⟩, w₁, hask, hs₁, hw₁, hallows⟩ := hasNext_file ht hR hs hw
  rcases found with e | found
  · refine ⟨.error e, ⟨file, progress⟩, w₁, ?_, hs₁, hw₁, hallows⟩
    simp only [FileScan.next, hask]
  rcases progress with _ | ⟨pageCount, nextPage, current, _ | row⟩
  · refine ⟨.error exhausted, ⟨file, none⟩, w₁, ?_, hs₁, hw₁, G.fault_exhausted w₁⟩
    simp only [FileScan.next, hask]
  · refine ⟨.error exhausted, ⟨file, some ⟨pageCount, nextPage, current, none⟩⟩, w₁, ?_, hs₁, hw₁,
      G.fault_exhausted w₁⟩
    simp only [FileScan.next, hask]
  · obtain ⟨hahead, hrows⟩ := hs₁.progress _ rfl
    refine ⟨.ok row, ⟨file, some ⟨pageCount, nextPage, current, none⟩⟩, w₁, ?_,
      ⟨hs₁.file, fun q hq => ?_⟩, hw₁, hahead row rfl⟩
    · simp only [FileScan.next, hask]
    · cases hq
      exact ⟨fun _ h => (by cases h), hrows⟩

end

/-! ## Tables -/

/-- What is known of a scan of a table, if it is open. -/
def CarriesTable (G : Regime W) (t : TableScan) (s : Option FileScan) : Prop :=
  ∀ scan ∈ s, G.Carries t scan

section

variable {t : TableScan} (ht : G.Scans t)

include ht

lemma start_table : G.Keeps .table (G.CarriesTable t) (fun _ => True) t.start := by
  intro s R w hR hs hw
  rcases hlookup : Storage.heapFile t.table w with e | file
  · refine ⟨.error (.error e), s, w, ?_, hs, hw, G.heapFile hw ht hlookup⟩
    simp only [TableScan.start, hlookup]
  by_cases hshape : file.schema.shape = t.schema.shape
  · rcases hcount : Storage.pageCount file w with e | pageCount
    · exact ⟨_, s, w, TableScan.start_of_error hlookup hshape hcount, hs, hw,
        G.pageCount hw hcount⟩
    · refine ⟨_, _, _, TableScan.start_of_ok hlookup hshape hcount, fun scan hscan => ?_, ?_,
        trivial⟩
      · cases hscan
        refine ⟨G.file hw ht hlookup, fun p hp => ?_⟩
        cases hp
        exact ⟨fun _ h => (by cases h), fun _ _ h => by cases h⟩
      · rcases s with _ | old
        · exact hw
        · exact (Multiset.zero_add R).symm ▸ (letGo hw).1
  · refine ⟨.error (.error (.typeMismatch t.schema.text file.schema.text)), s, w, ?_, hs, hw,
      G.shape hw ht hlookup hshape⟩
    simp only [TableScan.start, hlookup, hshape, if_false]

omit ht in
/-- A call that is forwarded to the scan of the file. -/
lemma Keeps.forward {T : α → Prop} {call : Call W FileScan α}
    (h : G.Keeps .file (G.Carries t) T call) (name : String) :
    G.Keeps .table (G.CarriesTable t) T (TableScan.forward name call) := by
  rintro (_ | scan) R w hR hs hw
  · exact ⟨_, none, w, rfl, hs, hw, G.fault_notOpen _ w⟩
  · obtain ⟨answer, scan', w', hcall, hscan', hw', hallows⟩ := h hR (hs scan rfl) hw
    refine ⟨answer, some scan', w', ?_, fun _ h => by cases h; exact hscan', hw', hallows⟩
    simp only [TableScan.forward, hcall]

omit ht in
lemma rewind_file : G.Keeps .file (G.Carries t) (fun _ => True) FileScan.rewind := by
  rintro ⟨file, _ | p⟩ R w hR hs hw
  · exact ⟨_, _, w, rfl, hs, hw, G.fault_notOpen _ w⟩
  have hgone : G.Good R (FileScan.letGo ⟨file, some p⟩ w) := (letGo hw).1
  have hclosed : G.Carries t ⟨file, none⟩ := ⟨hs.file, fun _ h => by cases h⟩
  rcases hcount : Storage.pageCount file (FileScan.letGo ⟨file, some p⟩ w) with e | pageCount
  · refine ⟨_, ⟨file, none⟩, FileScan.letGo ⟨file, some p⟩ w, FileScan.start_of_error hcount,
      hclosed, (Multiset.zero_add R).symm ▸ hgone, G.pageCount hgone hcount⟩
  · refine ⟨_, _, FileScan.letGo ⟨file, some p⟩ w,
      FileScan.start_of_ok (s := ⟨file, none⟩) hcount, ⟨hs.file, fun q hq => ?_⟩,
      (Multiset.zero_add R).symm ▸ hgone, trivial⟩
    cases hq
    exact ⟨fun _ h => (by cases h), fun _ _ h => by cases h⟩

/-- **The scan of a table obeys a regime.** -/
theorem governs_table :
    G.Governs .table (G.CarriesTable t) (· = none) (G.Conforms t.schema) t.cursor where
  start := start_table ht
  hasNext := (hasNext_file ht).forward hasNextText
  next := (next_file ht).forward nextText
  rewind := rewind_file.forward rewindText
  close := by
    rintro (_ | scan) R w hs hw
    · exact ⟨none, w, rfl, rfl, hw, fun _ he => he⟩
    · obtain ⟨hgone, hfaults⟩ := letGo hw
      exact ⟨none, scan.letGo w, rfl, rfl, (Multiset.zero_add R).symm ▸ hgone, hfaults⟩
  of_shut := by
    rintro _ rfl _ h
    cases h

end

end Regime

namespace Plan

/-! ## Plans -/

/-- The cursor of a plan is closed, and so is every operator below it. -/
def Shut : (p : Plan) → p.State → Prop
  | rows _ _ => Lookahead.Shut fun _ => True
  | scan _ => fun s : Option FileScan => s = none
  | filter _ child => Lookahead.Shut child.Shut
  | join _ left right => Lookahead.Shut (JoinState.Shut left.Shut right.Shut)
  | aggregate _ child => Lookahead.Shut (AggregationState.Shut child.Shut)

/-- The states of a cursor that are in order under a regime. -/
def Tidy (G : Regime W) : (p : Plan) → p.State → Prop
  | rows schema _ => Lookahead.Tidy (fun _ => True) (fun _ => True) (G.Conforms schema)
  | scan t => G.CarriesTable t
  | filter _ child => Lookahead.Tidy (child.Tidy G) child.Shut (G.Conforms child.schema)
  | join _ left right =>
    Lookahead.Tidy (JoinState.Tidy (left.Tidy G) (right.Tidy G) (G.Conforms left.schema))
      (JoinState.Shut left.Shut right.Shut) (G.Conforms (left.schema.append right.schema))
  | aggregate a child =>
    Lookahead.Tidy (AggregationState.Tidy (child.Tidy G) (G.Conforms a.schema))
      (AggregationState.Shut child.Shut) (G.Conforms a.schema)

/-- What is in order under a regime is in order under another that knows no more of rows and
files. -/
lemma Tidy.mono {G G' : Regime W} {p : Plan} {s : p.State}
    (hrow : ∀ {schema row}, G.Conforms schema row → G'.Conforms schema row)
    (hfile : ∀ {t file}, G.File t file → G'.File t file) (hs : p.Tidy G s) : p.Tidy G' s := by
  induction p with
  | rows schema list => exact ⟨hs.feed, fun row h => hrow (hs.ahead row h), hs.shut⟩
  | scan t =>
    intro scan hscan
    refine ⟨hfile (hs scan hscan).file, fun q hq => ?_⟩
    obtain ⟨hahead, hcurrent⟩ := (hs scan hscan).progress q hq
    exact ⟨fun row h => hrow (hahead row h),
      fun h rows hc row hmem => hrow (hcurrent h rows hc row hmem)⟩
  | filter predicate child ih => exact ⟨ih hs.feed, fun row h => hrow (hs.ahead row h), hs.shut⟩
  | join predicate left right ihl ihr =>
    exact ⟨⟨ihl hs.feed.left, ihr hs.feed.right, fun row h => hrow (hs.feed.current row h)⟩,
      fun row h => hrow (hs.ahead row h), hs.shut⟩
  | aggregate a child ih =>
    exact ⟨⟨ih hs.feed.child, fun made h row hmem => hrow (hs.feed.results made h row hmem)⟩,
      fun row h => hrow (hs.ahead row h), hs.shut⟩

/-- What a plan computes is as a regime wants it. -/
def Suits (G : Regime W) : Plan → Prop
  | rows schema list => ∀ row ∈ list, G.Conforms schema row
  | scan t => G.Scans t
  | filter predicate child => child.Suits G ∧
    ∀ row, G.Conforms child.schema row → G.Sanctions (fun _ => True) (predicate.test row)
  | join predicate left right => left.Suits G ∧ right.Suits G ∧
    ∀ l r, G.Conforms left.schema l → G.Conforms right.schema r →
      G.Sanctions (fun _ => True) (predicate.test l r) ∧
        G.Sanctions (G.Conforms (left.schema.append right.schema))
          (Row.append (left.schema.append right.schema) l r)
  | aggregate a child => child.Suits G ∧ ∃ B, G.Aggregates a child.schema B

/-- **Every plan that suits a regime obeys it.** -/
theorem governed {G : Regime W} {p : Plan} (orders : p.Orders W) (h : p.Suits G) :
    G.Governs p.footprint (p.Tidy G) p.Shut (G.Conforms p.schema) (p.cursor orders) := by
  induction p with
  | rows schema list => exact (Regime.governsFeed_rows h).lookahead
  | scan t => exact Regime.governs_table h
  | filter predicate child ih => exact ((ih orders h.1).filter _ h.2).lookahead
  | join predicate left right ihl ihr =>
    exact ((ihl orders.1 h.1).join (ihr orders.2 h.2.1) (fun l r hl hr => (h.2.2 l r hl hr).1)
      fun l r hl hr => (h.2.2 l r hl hr).2).lookahead
  | aggregate a child ih =>
    obtain ⟨hchild, B, ha⟩ := h
    exact (Regime.Governs.aggregation ha (ih orders.2 hchild) _ orders.1).lookahead

end Plan

/-! ## Regimes that do not look at rows -/

/-- The failures of tests, of putting rows together and of aggregators: contracts that are broken,
values of the wrong type, and functions that there are not. -/
def Failure.IsOfQuery : Failure → Prop
  | .violation _ | .error (.typeMismatch _ _) | .error (.unsupported _) => True
  | _ => False

section

variable {e : Failure}

lemma Row.isOfQuery_of_get {r : Row} {index : ℕ} (h : r.get index = .error e) : e.IsOfQuery := by
  rw [get] at h
  split at h <;> cases h
  trivial

lemma Row.isOfQuery_unsetError (r : Row) (index : ℕ) :
    (Failure.error (r.unsetError index)).IsOfQuery := by
  rw [unsetError]
  split <;> trivial

lemma isOfQuery_of_testFields {op : Comparison} {a b : Option Value}
    (h : liftError (testFields op a b) = .error e) : e.IsOfQuery := by
  rcases htest : testFields op a b with e' | passed <;> rw [htest] at h <;> cases h
  obtain ⟨expected, actual, hmismatch⟩ := mismatch_of_testFields htest
  rw [hmismatch]
  trivial

lemma Predicate.isOfQuery_of_test {p : Predicate} {r : Row} (h : p.test r = .error e) :
    e.IsOfQuery := by
  rcases hget : r.get p.field with e' | field
  · simp only [test, hget, bind, Except.bind] at h
    cases h
    exact Row.isOfQuery_of_get hget
  · simp only [test, hget, bind, Except.bind] at h
    exact isOfQuery_of_testFields h

lemma JoinPredicate.isOfQuery_of_test {p : JoinPredicate} {l r : Row}
    (h : p.test l r = .error e) : e.IsOfQuery := by
  rcases hl : l.get p.left with e' | a
  · simp only [test, hl, bind, Except.bind] at h
    cases h
    exact Row.isOfQuery_of_get hl
  rcases hr : r.get p.right with e' | b
  · simp only [test, hl, hr, bind, Except.bind] at h
    cases h
    exact Row.isOfQuery_of_get hr
  · simp only [test, hl, hr, bind, Except.bind] at h
    exact isOfQuery_of_testFields h

lemma Row.isOfQuery_of_append {schema : Schema} {l r : Row}
    (h : Row.append schema l r = .error e) : e.IsOfQuery := by
  rw [append] at h
  split at h <;> cases h
  trivial

lemma GroupKey.isOfQuery_of_toRow {key : GroupKey} {schema : Schema} {result : Int32}
    (h : key.toRow schema result = .error e) : e.IsOfQuery := by
  rw [toRow, Row.ofValues] at h
  split at h <;> cases h
  trivial

lemma GroupKey.isOfQuery_of_of {r : Row} {group : Option ℕ} (h : of r group = .error e) :
    e.IsOfQuery := by
  rcases group with _ | index
  · cases h
  rcases hget : r.get index with e' | _ | v <;>
    simp only [of, hget, bind, Except.bind, throw, throwThe, MonadExceptOf.throw] at h <;> cases h
  · exact Row.isOfQuery_of_get hget
  · exact r.isOfQuery_unsetError index

end

lemma Aggregation.isOfQuery_of_entry {a : Aggregation} {r : Row} {e : Failure}
    (h : a.entry r = .error e) : e.IsOfQuery := by
  rw [entry] at h
  split at h
  · rcases hkey : GroupKey.of r a.group with e' | key <;> rw [hkey] at h <;> cases h
    exact GroupKey.isOfQuery_of_of hkey
  · rcases hget : r.get a.field with e' | _ | n | text <;> rw [hget] at h
    · cases h
      exact Row.isOfQuery_of_get hget
    · cases h
      exact r.isOfQuery_unsetError a.field
    · rcases hkey : GroupKey.of r a.group with e' | key <;> rw [hkey] at h <;> cases h
      exact GroupKey.isOfQuery_of_of hkey
    · cases h
      trivial

lemma Aggregation.isOfQuery_of_aggregator {a : Aggregation} {e : Error}
    (h : a.aggregator = .error e) : (Failure.error e).IsOfQuery := by
  rcases htype : a.type with _ | capacity <;>
    simp only [aggregator, Aggregator.create, htype] at h
  · cases h
  · rw [TextAggregator.create] at h
    split at h <;> cases h
    trivial

/-- One row per group can only fail to be made in one of the groups. -/
lemma isOfQuery_of_results {κ : Type} {whole : Except Failure Row} {entries : List κ}
    {row : κ → Except Failure Row} {condition : Prop} [Decidable condition] {e : Failure}
    (hwhole : ∀ e, whole = .error e → e.IsOfQuery)
    (hrow : ∀ entry e, row entry = .error e → e.IsOfQuery)
    (h : (if condition then do return [← whole] else entries.mapM row) = .error e) :
    e.IsOfQuery := by
  split at h
  · rcases hone : whole with e' | one <;> rw [hone] at h <;> cases h
    exact hwhole _ hone
  · obtain ⟨entry, -, hentry⟩ := exists_of_mapM_eq_error h
    exact hrow entry e hentry

lemma Aggregator.isOfQuery_of_results {x : Aggregator} {e : Failure} (h : x.results = .error e) :
    e.IsOfQuery := by
  rcases x with a | a
  · exact RowStore.isOfQuery_of_results (fun _ => GroupKey.isOfQuery_of_toRow)
      (fun _ _ => GroupKey.isOfQuery_of_toRow) h
  · exact RowStore.isOfQuery_of_results (fun _ => GroupKey.isOfQuery_of_toRow)
      (fun _ _ => GroupKey.isOfQuery_of_toRow) h

namespace Regime

/-- A regime under which any rows will do, any scans are made, and computations may fail. -/
structure Indifferent (G : Regime W) : Prop where
  conforms : ∀ schema row, G.Conforms schema row
  scans : ∀ t, G.Scans t
  fault : ∀ {e}, e.IsOfQuery → ∀ w, G.Fault e w

namespace Indifferent

variable {G : Regime W} (hG : G.Indifferent)

include hG

lemma sanctions {T : α → Prop} {answer : Except Failure α} (hT : ∀ a, answer = .ok a → T a)
    (h : ∀ e, answer = .error e → e.IsOfQuery) : G.Sanctions T answer := by
  intro w
  rcases answer with e | a
  · exact hG.fault (h e rfl) w
  · exact hT a rfl

lemma aggregates (a : Aggregation) (input : Schema) : G.Aggregates a input (Aggregator.For a) where
  aggregator := by
    rcases h : a.aggregator with e | x
    · exact hG.sanctions (fun _ h => by cases h) fun _ he => by
        cases he
        exact Aggregation.isOfQuery_of_aggregator h
    · exact fun _ => Aggregator.for_aggregator h
  merge x row hx _ := by
    rw [hx.merge]
    rcases hentry : a.entry row with e | entry
    · exact hG.sanctions (fun _ h => by cases h) fun _ he => by
        cases he
        exact Aggregation.isOfQuery_of_entry hentry
    · exact fun _ => hx.put entry
  results x _ := hG.sanctions (fun rows _ row _ => hG.conforms a.schema row)
    fun _ => Aggregator.isOfQuery_of_results

/-- Every plan suits such a regime. -/
lemma suits (p : Plan) : p.Suits G := by
  induction p with
  | rows schema list => exact fun row _ => hG.conforms schema row
  | scan t => exact hG.scans t
  | filter predicate child ih =>
    exact ⟨ih, fun row _ => hG.sanctions (fun _ _ => trivial) fun _ => Predicate.isOfQuery_of_test⟩
  | join predicate left right ihl ihr =>
    refine ⟨ihl, ihr, fun l r _ _ => ⟨?_, ?_⟩⟩
    · exact hG.sanctions (fun _ _ => trivial) fun _ => JoinPredicate.isOfQuery_of_test
    · exact hG.sanctions (fun row _ => hG.conforms _ row) fun _ => Row.isOfQuery_of_append
  | aggregate a child ih => exact ⟨ih, _, hG.aggregates a child.schema⟩

end Indifferent

end Regime

end RowStore
