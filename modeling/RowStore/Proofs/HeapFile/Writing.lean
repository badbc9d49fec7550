import RowStore.HeapFile.Writer
import RowStore.Proofs.Page.Codec

/-!
# What a writer writes

A writer is driven by calls that append a row or finish the page (`Writer.Call`).  Whatever they
are, what it has written is the stored form of some pages one behind the other, and the rows of
these and of the current page are those that could be stored, in the order in which they came
(`Writer.Filled`).

The invariant names the pages that are finished.  One call keeps it and answers as its row deserves
(`Writer.Filled.act`), so a run of calls does (`Writer.Filled.run`); in particular, no row finds a
page full, because a full page is finished before the row is looked at.
-/

namespace RowStore.Writer

/-! ## Calls -/

/-- The calls by which a file is filled. -/
inductive Call where
  | append (r : Row)
  | finishPage

/-- What a call does. -/
def act (w : Writer) : Call → Except Error Unit × Writer
  | .append r => w.append r
  | .finishPage => w.finishPage

/-- Calls one after the other, with their answers. -/
def run : Writer → List Call → List (Except Error Unit) × Writer
  | w, [] => ([], w)
  | w, call :: calls =>
    let (answer, w) := w.act call
    let (answers, w) := w.run calls
    (answer :: answers, w)

/-- The answer that a call deserves: a row is stored or its fields are at fault. -/
inductive Call.Answered (schema : Schema) : Call → Except Error Unit → Prop
  | stored {r : Row} (h : r.Storable schema) : Answered schema (.append r) (.ok ())
  | refused {r : Row} (h : ¬ r.Storable schema) (expected actual : String) :
    Answered schema (.append r) (.error (.typeMismatch expected actual))
  | finished : Answered schema .finishPage (.ok ())

/-- The row that a call adds, if it adds one. -/
def Call.row? (schema : Schema) : Call → Option Row
  | .append r => if r.Storable schema then some r else none
  | .finishPage => none

/-- The rows that calls add. -/
def accepted (schema : Schema) (calls : List Call) : List Row :=
  calls.filterMap (Call.row? schema)

/-! ## The invariant -/

/-- A page of the file that a writer writes, with nothing but rows that were stored in it. -/
structure Makes (w : Writer) (number : ℕ) (p : Page) : Prop where
  packed : p.Packed
  id_eq : p.id = ⟨w.table, UInt32.ofNat number⟩
  schema_eq : p.schema = w.schema
  layout_eq : p.layout = w.layout

lemma Makes.rowSize_eq {w : Writer} {number : ℕ} {p : Page} (hp : w.Makes number p)
    (h : w.layout.rowSize = w.schema.byteSize) : p.layout.rowSize = p.schema.byteSize := by
  rw [hp.layout_eq, hp.schema_eq, h]

/-- A writer that began as `w₀` has written out the given pages. -/
structure Filled (w₀ w : Writer) (pages : List Page) : Prop where
  path_eq : w.path = w₀.path
  table_eq : w.table = w₀.table
  schema_eq : w.schema = w₀.schema
  layout_eq : w.layout = w₀.layout
  rowSize_eq : w₀.layout.rowSize = w₀.schema.byteSize
  valid : w₀.layout.Valid
  count : w.pagesWritten = pages.length
  output : ∃ images, pages.mapM Page.encode = .ok images ∧ w.output = images.flatten
  finished : ∀ n (h : n < pages.length), w₀.Makes n pages[n]
  current : w₀.Makes pages.length w.page

lemma makes_freshPage (w : Writer) (number : ℕ) :
    w.Makes number (freshPage w.table w.schema w.layout number) where
  packed := .empty _ w.schema w.layout
  id_eq := rfl
  schema_eq := rfl
  layout_eq := rfl

/-- What a writer begins with. -/
lemma create_eq_ok {d d₀ : Disk} {name : String} {schema : Schema} {pageSize : ℕ} {w₀ : Writer}
    (h : create d name schema pageSize = .ok (w₀, d₀)) :
    Filled w₀ w₀ [] ∧ w₀.page.rows = [] ∧ w₀.table = TableId.ofPath w₀.path ∧ w₀.schema = schema ∧
      w₀.layout = ⟨pageSize, schema.byteSize, schema.byteSize_pos⟩ ∧
      d.locate name = .ok w₀.path ∧ d₀ = d.put w₀.path ∅ := by
  rw [create] at h
  rcases hlayout : HeapFile.layoutFor schema pageSize with e | layout
  · rw [hlayout] at h
    cases h
  · rcases hpath : d.locate name with e | path
    · rw [hlayout, hpath] at h
      cases h
    · rw [hlayout, hpath] at h
      cases h
      refine ⟨⟨rfl, rfl, rfl, rfl, layout.property.1, layout.property.2, rfl, ⟨[], rfl, rfl⟩,
        fun n hn => (by cases hn), makes_freshPage _ 0⟩, Page.rows_empty _ _ _, rfl, rfl, ?_, rfl,
        rfl⟩
      exact (HeapFile.layoutFor_eq_ok_iff schema pageSize layout).1 hlayout

/-- A file can be written wherever one can be, if rows of the schema fit on the pages. -/
lemma exists_create {d : Disk} {name path : String} {schema : Schema} {pageSize : ℕ}
    (hpath : d.locate name = .ok path)
    (hvalid : (PageLayout.mk pageSize schema.byteSize schema.byteSize_pos).Valid) :
    ∃ w₀ d₀, create d name schema pageSize = .ok (w₀, d₀) := by
  have hlayout := (HeapFile.layoutFor_eq_ok_iff schema pageSize ⟨_, rfl, hvalid⟩).2 rfl
  simp only [create, hlayout, hpath]
  exact ⟨_, _, rfl⟩

lemma append_of_free {w : Writer} (hfree : w.page.freeCount ≠ 0) (r : Row) :
    w.append r = w.store r :=
  if_neg hfree

lemma append_of_full {w w₁ : Writer} (hfull : w.page.freeCount = 0)
    (hfinish : w.finishPage = (.ok (), w₁)) (r : Row) : w.append r = w₁.store r := by
  rw [append, if_pos hfull, hfinish]

/-- The fields of the rows of some pages. -/
def fieldsOf (pages : List Page) : List (List (Option Value)) :=
  pages.flatMap fun p => p.rows.map Row.fields

lemma fieldsOf_concat (pages : List Page) (p : Page) :
    fieldsOf (pages ++ [p]) = fieldsOf pages ++ p.rows.map Row.fields := by
  rw [fieldsOf, List.flatMap_append, List.flatMap_cons, List.flatMap_nil, List.append_nil]
  rfl

namespace Filled

variable {w₀ w : Writer} {pages : List Page}

/-! ## One call -/

lemma finishPage_eq_ok {bytes : Bytes} (h : w.page.encode = .ok bytes) :
    w.finishPage = (.ok (), { w with
      output := w.output ++ bytes
      pagesWritten := w.pagesWritten + 1
      page := freshPage w.table w.schema w.layout (w.pagesWritten + 1) }) := by
  simp only [Writer.finishPage, h]

lemma store_eq_ok {r : Row} {id : RecordId} {page : Page} (h : w.page.insert r = .ok (id, page)) :
    w.store r = (.ok (), { w with page := page, rowsWritten := w.rowsWritten + 1 }) := by
  simp only [Writer.store, h]

/-- The current page can always be written out, and the next one is empty. -/
lemma finishPage (h : Filled w₀ w pages) : ∃ w', w.finishPage = (.ok (), w') ∧
    Filled w₀ w' (pages ++ [w.page]) ∧ w'.page.rows = [] := by
  have hcurrent := h.current
  obtain ⟨bytes, hbytes, -⟩ :=
    hcurrent.packed.toSound.exists_encode (hcurrent.rowSize_eq h.rowSize_eq)
  obtain ⟨images, himages, houtput⟩ := h.output
  have hlength : (pages ++ [w.page]).length = w.pagesWritten + 1 := by
    rw [List.length_append, h.count, List.length_singleton]
  refine ⟨_, finishPage_eq_ok hbytes, ?_, ?_⟩
  · refine ⟨h.path_eq, h.table_eq, h.schema_eq, h.layout_eq, h.rowSize_eq, h.valid, hlength.symm,
      ⟨images ++ [bytes], mapM_concat himages hbytes, ?_⟩, fun n hn => ?_, ?_⟩
    · rw [List.flatten_append, List.flatten_singleton, houtput]
    · rw [List.getElem_append]
      split
      · next hlt => exact h.finished n hlt
      · next hge =>
        have hlast : n = pages.length := by
          rw [List.length_append, List.length_singleton] at hn
          omega
        subst hlast
        simpa using hcurrent
    · rw [hlength, h.table_eq, h.schema_eq, h.layout_eq]
      exact makes_freshPage w₀ (w.pagesWritten + 1)
  · exact Page.rows_empty _ _ _

/-- A row that comes to a page with a free slot. -/
lemma store (h : Filled w₀ w pages) (hfree : w.page.rows.length < w.page.layout.slots) {r : Row}
    (hwidth : r.width = r.schema.width) : ∃ answer w', w.store r = (answer, w') ∧
      Filled w₀ w' pages ∧ (Call.append r).Answered w₀.schema answer ∧
      w'.page.rows.map Row.fields =
        w.page.rows.map Row.fields ++ ((Call.append r).row? w₀.schema).toList.map Row.fields := by
  have hcurrent := h.current
  by_cases hr : r.Storable w₀.schema
  · obtain ⟨id, page, hinsert, hpacked, hid, hschema, hlayout, hrows⟩ :=
      hcurrent.packed.insert hfree hwidth (hcurrent.schema_eq.symm ▸ hr)
    refine ⟨.ok (), _, store_eq_ok hinsert, ?_, .stored hr, ?_⟩
    · exact ⟨h.path_eq, h.table_eq, h.schema_eq, h.layout_eq, h.rowSize_eq, h.valid, h.count,
        h.output, h.finished, hpacked, hid.trans hcurrent.id_eq, hschema.trans hcurrent.schema_eq,
        hlayout.trans hcurrent.layout_eq⟩
    · rw [Call.row?, if_pos hr]
      simp only [hrows, List.map_append, Option.toList_some, List.map_cons, List.map_nil]
  · have hrefused : w.page.check r ≠ .ok () := by
      rw [Ne, Page.check_eq_ok_iff hwidth, hcurrent.schema_eq]
      exact hr
    rcases hcheck : w.page.check r with e | ⟨⟩
    · obtain ⟨expected, actual, rfl⟩ := Page.check_eq_error hcheck
      refine ⟨_, w, by simp only [Writer.store, Page.insert_eq_error hcheck], h,
        .refused hr expected actual, ?_⟩
      rw [Call.row?, if_neg hr]
      simp
    · exact absurd hcheck hrefused

/-- What one call does.  The pages that are finished may be one more afterwards. -/
lemma act (h : Filled w₀ w pages) {call : Call}
    (hwidth : ∀ r, call = .append r → r.width = r.schema.width) :
    ∃ answer w' pages', w.act call = (answer, w') ∧ Filled w₀ w' pages' ∧
      call.Answered w₀.schema answer ∧ fieldsOf (pages' ++ [w'.page]) =
        fieldsOf (pages ++ [w.page]) ++ (call.row? w₀.schema).toList.map Row.fields := by
  cases call with
  | finishPage =>
    obtain ⟨w', hfinish, h', hrows⟩ := h.finishPage
    refine ⟨.ok (), w', pages ++ [w.page], hfinish, h', .finished, ?_⟩
    rw [fieldsOf_concat, hrows]
    rfl
  | append r =>
    have hwidth := hwidth r rfl
    by_cases hfull : w.page.freeCount = 0
    · -- The page is finished even if the row is refused; the fields of all rows stay the same.
      obtain ⟨w₁, hfinish, h₁, hrows₁⟩ := h.finishPage
      have hfree : w₁.page.rows.length < w₁.page.layout.slots := by
        rw [hrows₁, h₁.current.layout_eq]
        exact h.valid.1
      obtain ⟨answer, w', hstore, h', hanswer, hrows⟩ := h₁.store hfree hwidth
      refine ⟨answer, w', pages ++ [w.page], ?_, h', hanswer, ?_⟩
      · rw [Writer.act, append_of_full hfull hfinish, hstore]
      · rw [fieldsOf_concat, hrows, hrows₁]
        rfl
    · have hfree : w.page.rows.length < w.page.layout.slots := by
        have hle := h.current.packed.length_rows_le
        rw [h.current.packed.freeCount_eq_zero_iff] at hfull
        omega
      obtain ⟨answer, w', hstore, h', hanswer, hrows⟩ := h.store hfree hwidth
      refine ⟨answer, w', pages, ?_, h', hanswer, ?_⟩
      · rw [Writer.act, append_of_free hfull, hstore]
      · rw [fieldsOf_concat, fieldsOf_concat, hrows, List.append_assoc]

/-! ## A run -/

/-- Every call is answered as it deserves, and the rows that are added are those that can be. -/
lemma run (h : Filled w₀ w pages) {calls : List Call}
    (hwidth : ∀ r, .append r ∈ calls → r.width = r.schema.width) :
    ∃ answers w' pages', w.run calls = (answers, w') ∧ Filled w₀ w' pages' ∧
      List.Forall₂ (Call.Answered w₀.schema) calls answers ∧ fieldsOf (pages' ++ [w'.page]) =
        fieldsOf (pages ++ [w.page]) ++ (accepted w₀.schema calls).map Row.fields := by
  induction calls generalizing w pages with
  | nil => exact ⟨[], w, pages, rfl, h, .nil, (List.append_nil _).symm⟩
  | cons call calls ih =>
    have hhead : ∀ r, call = .append r → r.width = r.schema.width := fun r hr =>
      hwidth r (hr ▸ List.mem_cons_self)
    obtain ⟨answer, w₁, pages₁, hact, h₁, hanswer, hrows₁⟩ := h.act hhead
    obtain ⟨answers, w', pages', hrun, h', hanswers, hrows⟩ := ih h₁ fun r hr =>
      hwidth r (List.mem_cons_of_mem call hr)
    refine ⟨answer :: answers, w', pages', ?_, h', .cons hanswer hanswers, ?_⟩
    · simp only [Writer.run, hact, hrun]
    · rw [hrows, hrows₁, List.append_assoc, ← List.map_append, accepted, accepted,
        List.filterMap_cons]
      rcases call.row? w₀.schema with _ | row <;> rfl

/-- At the end the current page is written out if it holds a row. -/
lemma finish (h : Filled w₀ w pages) : ∃ w' pages', w.finish = (.ok pages'.length, w') ∧
    Filled w₀ w' pages' ∧ fieldsOf pages' = fieldsOf (pages ++ [w.page]) := by
  by_cases hrows : 0 < w.page.rowCount
  · obtain ⟨w', hfinish, h', -⟩ := h.finishPage
    refine ⟨w', pages ++ [w.page], ?_, h', rfl⟩
    simp only [Writer.finish, if_pos hrows, hfinish, h'.count]
  · refine ⟨w, pages, ?_, h, ?_⟩
    · simp only [Writer.finish, if_neg hrows, h.count]
    · have hnone : w.page.rows = [] := by
        rw [Page.rowCount_eq] at hrows
        exact List.length_eq_zero_iff.1 (by omega)
      rw [fieldsOf_concat, hnone, List.map_nil, List.append_nil]

end Filled

end RowStore.Writer
