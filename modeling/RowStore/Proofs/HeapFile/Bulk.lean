import RowStore.Proofs.HeapFile.RoundTrip
import RowStore.Proofs.HeapFile.Tiling
import RowStore.Proofs.Query.Semantics

/-!
# Writing many rows at once

Rows that are written to a new file at once are packed: every page but the last is full.  If all of
them can be stored, the file has the pages that they need.  Otherwise the first that cannot be is
told of, and the file keeps whole pages only: those that the rows in front of it fill.  What was on
the page that was not full is lost (`Writer.writeRowsBounded_packs`).

A full page is written out when the next row comes, whatever becomes of that row, and the last page
at the end.  So the invariant does not have to say when a page is written out: it says that some
whole pages have been, and that the current page holds the rows that are left
(`Writer.Loaded`).  Before a row is looked at, there are as many as the rows so far fill
(`Writer.Loaded.makeRoom`).
-/

namespace RowStore

/-! ## What is refused -/

/-- Why a field is refused by its column. -/
inductive ColumnType.Refuses (ty : ColumnType) : Option Value → Error → Prop
  | unset : Refuses ty none ty.unsetError
  | kind {v : Value} (h : v.fits ty = false) :
    Refuses ty (some v) (.typeMismatch ty.name v.kind)

/-- Why a row cannot be stored: it has another shape, or a field is refused and none in front of it
is. -/
inductive Row.Fault (schema : Schema) (r : Row) : Error → Prop
  | shape (h : r.schema.shape ≠ schema.shape) :
    Fault schema r (.typeMismatch schema.text r.schema.text)
  | field {i : ℕ} {ty : ColumnType} {field : Option Value} {e : Error}
    (hshape : r.schema.shape = schema.shape) (hty : schema.shape[i]? = some ty)
    (hfield : r.fields[i]? = some field) (h : ty.Refuses field e)
    (hfirst : ∀ j < i, ∀ ty field, schema.shape[j]? = some ty → r.fields[j]? = some field →
      ty.Takes field) :
    Fault schema r e

namespace Page

lemma exists_refuses_of_checkFields {types : List ColumnType} {fields : List (Option Value)}
    {e : Error} (h : checkFields types fields = .error e) :
    ∃ (i : ℕ) (ty : ColumnType) (field : Option Value),
      types[i]? = some ty ∧ fields[i]? = some field ∧ ty.Refuses field e ∧
        ∀ j < i, ∀ (ty : ColumnType) (field : Option Value),
          types[j]? = some ty → fields[j]? = some field → ty.Takes field := by
  induction types generalizing fields with
  | nil => cases h
  | cons ty types ih =>
    rcases fields with _ | ⟨_ | v, fields⟩
    · cases h
    · cases h
      exact ⟨0, ty, none, rfl, rfl, .unset, fun j hj => absurd hj (Nat.not_lt_zero j)⟩
    · rw [checkFields] at h
      split at h
      · next hfits =>
        obtain ⟨i, ty', field, hty, hfield, hrefuses, hfirst⟩ := ih h
        refine ⟨i + 1, ty', field, hty, hfield, hrefuses, fun j hj ty'' field' hty' hfield' => ?_⟩
        rcases j with _ | j
        · cases hty'
          cases hfield'
          exact ⟨v, rfl, hfits⟩
        · exact hfirst j (Nat.lt_of_succ_lt_succ hj) ty'' field' hty' hfield'
      · next hfits =>
        cases h
        exact ⟨0, ty, some v, rfl, rfl, .kind (Bool.eq_false_iff.2 hfits),
          fun j hj => absurd hj (Nat.not_lt_zero j)⟩

lemma fault_of_check {p : Page} {r : Row} {e : Error} (h : p.check r = .error e) :
    r.Fault p.schema e := by
  rw [check] at h
  split at h
  · next hshape =>
    obtain ⟨i, ty, field, hty, hfield, hrefuses, hfirst⟩ := exists_refuses_of_checkFields h
    exact .field hshape hty hfield hrefuses hfirst
  · next hshape =>
    cases h
    exact .shape hshape

end Page

/-! ## Packed files -/

namespace PageLayout

variable {l : PageLayout} {count n : ℕ} {rows : List Row}

/-- The rows that are on a page if rows are packed in their order. -/
def rowsOn (l : PageLayout) (rows : List Row) (number : ℕ) : List Row :=
  (rows.drop (number * l.slots)).take l.slots

/-- Pages in front are not changed by rows behind. -/
lemma rowsOn_append (h : (n + 1) * l.slots ≤ rows.length) (more : List Row) :
    l.rowsOn (rows ++ more) n = l.rowsOn rows n := by
  rw [Nat.succ_mul] at h
  rw [rowsOn, rowsOn, List.drop_append_of_le_length (by omega),
    List.take_append_of_le_length (by rw [List.length_drop]; omega)]

/-- A page is full if there are enough rows. -/
lemma length_rowsOn (h : (n + 1) * l.slots ≤ rows.length) :
    (l.rowsOn rows n).length = l.slots := by
  rw [Nat.succ_mul] at h
  rw [rowsOn, List.length_take_of_le]
  rw [List.length_drop]
  omega

lemma rowsOn_take (h : n < count) (rows : List Row) :
    l.rowsOn (rows.take (count * l.slots)) n = l.rowsOn rows n := by
  have hle : (n + 1) * l.slots ≤ count * l.slots := Nat.mul_le_mul_right _ h
  rw [Nat.succ_mul] at hle
  rw [rowsOn, rowsOn, List.drop_take, List.take_take, Nat.min_eq_left (by omega)]

end PageLayout

namespace Writer

/-- A file consists of so many pages, with the given rows packed in them. -/
structure Packs (d : Disk) (path : String) (schema : Schema) (layout : PageLayout) (count : ℕ)
    (rows : List Row) : Prop where
  length : d.lengthOf path = .ok (count * layout.stride)
  stored : ∃ (pages : List Page) (images : List Bytes), pages.length = count ∧
    pages.mapM Page.encode = .ok images ∧ d.content path = .ok (.ofList images.flatten) ∧
    ∀ n (h : n < pages.length),
      pages[n].Packed ∧ pages[n].id = ⟨TableId.ofPath path, UInt32.ofNat n⟩ ∧
        pages[n].schema = schema ∧ pages[n].layout = layout ∧
        pages[n].rows.map Row.fields = (layout.rowsOn rows n).map Row.fields
  read : (∀ ty ∈ schema.shape, ty.Bounded) → ∀ f : HeapFile, f.id = TableId.ofPath path →
    f.path = path → f.layout = layout → f.schema.shape = schema.shape →
      f.pageCount d = .ok count ∧ ∀ n < count, ∃ p,
        f.readPageBounded d ⟨f.id, UInt32.ofNat n⟩ = .ok p ∧
          List.Forall₂ (Row.Keeps f.schema) (layout.rowsOn rows n) p.rows

/-! ## The invariant -/

variable {w₀ w : Writer} {pages : List Page} {rows : List Row} {r : Row}

/-- A writer that was given rows that can all be stored: some pages are full and have been written
out, and what is left of the rows is on the current page. -/
structure Loaded (w₀ w : Writer) (pages : List Page) (rows : List Row) : Prop
    extends Filled w₀ w pages where
  rows_eq : ∀ n (h : n < pages.length),
    pages[n].rows.map Row.fields = (w₀.layout.rowsOn rows n).map Row.fields
  page_eq : w.page.rows.map Row.fields =
    (rows.drop (pages.length * w₀.layout.slots)).map Row.fields
  whole : pages.length * w₀.layout.slots ≤ rows.length
  admits : w₀.layout.Admits pages.length

namespace Loaded

lemma length_rows (h : Loaded w₀ w pages rows) :
    w.page.rows.length = rows.length - pages.length * w₀.layout.slots := by
  have hlength := congrArg List.length h.page_eq
  rwa [List.length_map, List.length_map, List.length_drop] at hlength

lemma length_le (h : Loaded w₀ w pages rows) :
    rows.length ≤ (pages.length + 1) * w₀.layout.slots := by
  have hle := h.current.packed.length_rows_le
  rw [h.length_rows, h.current.layout_eq] at hle
  rw [Nat.succ_mul]
  omega

/-- The current page is full if the rows fill one more page. -/
lemma freeCount_eq_zero_iff (h : Loaded w₀ w pages rows) :
    w.page.freeCount = 0 ↔ rows.length = (pages.length + 1) * w₀.layout.slots := by
  have hwhole := h.whole
  rw [h.current.packed.freeCount_eq_zero_iff, h.length_rows, h.current.layout_eq, Nat.succ_mul]
  omega

/-- With the current page, all rows are on pages. -/
lemma rows_eq_concat (h : Loaded w₀ w pages rows) (n : ℕ) (hn : n < (pages ++ [w.page]).length) :
    (pages ++ [w.page])[n].rows.map Row.fields = (w₀.layout.rowsOn rows n).map Row.fields := by
  rw [List.getElem_append]
  split
  · next hlt => exact h.rows_eq n hlt
  · next hge =>
    obtain rfl : n = pages.length := by
      rw [List.length_append, List.length_singleton] at hn
      omega
    have hall : (rows.drop (pages.length * w₀.layout.slots)).length ≤ w₀.layout.slots := by
      have hle := h.length_le
      rw [Nat.succ_mul] at hle
      rw [List.length_drop]
      omega
    rw [PageLayout.rowsOn, List.take_of_length_le hall, ← h.page_eq]
    simp

/-! ## One row -/

lemma finishPage (h : Loaded w₀ w pages rows)
    (hfull : rows.length = (pages.length + 1) * w₀.layout.slots)
    (hadmits : w₀.layout.Admits (pages.length + 1)) :
    ∃ w', w.finishPage = (.ok (), w') ∧ Loaded w₀ w' (pages ++ [w.page]) rows := by
  obtain ⟨w', hfinish, hfilled, hrows⟩ := h.toFilled.finishPage
  have hlength : (pages ++ [w.page]).length = pages.length + 1 := by
    rw [List.length_append, List.length_singleton]
  refine ⟨w', hfinish, hfilled, h.rows_eq_concat, ?_, ?_, ?_⟩
  · rw [hlength, hrows, List.drop_of_length_le (Nat.le_of_eq hfull)]
  · rw [hlength, hfull]
  · rwa [hlength]

lemma store (h : Loaded w₀ w pages rows)
    (hfree : rows.length < (pages.length + 1) * w₀.layout.slots)
    (hwidth : r.width = r.schema.width) (hr : r.Storable w₀.schema) :
    ∃ w', w.store r = (.ok (), w') ∧ Loaded w₀ w' pages (rows ++ [r]) := by
  have hroom : w.page.rows.length < w.page.layout.slots := by
    rw [h.length_rows, h.current.layout_eq]
    rw [Nat.succ_mul] at hfree
    have hpos := h.valid.1
    omega
  obtain ⟨answer, w', hstore, hfilled, hanswer, hrows⟩ := h.toFilled.store hroom hwidth
  rw [Call.row?, if_pos hr] at hrows
  cases hanswer with
  | refused hrefused => exact absurd hr hrefused
  | stored =>
    refine ⟨w', hstore, hfilled, fun n hn => ?_, ?_, ?_, h.admits⟩
    · have hfront : (n + 1) * w₀.layout.slots ≤ rows.length :=
        Nat.le_trans (Nat.mul_le_mul_right _ hn) h.whole
      rw [PageLayout.rowsOn_append hfront]
      exact h.rows_eq n hn
    · rw [hrows, h.page_eq, List.drop_append_of_le_length h.whole, List.map_append]
      rfl
    · rw [List.length_append]
      exact Nat.le_trans h.whole (Nat.le_add_right _ _)

/-- A row that cannot be stored changes nothing once there is room for it. -/
lemma store_eq_error (h : Loaded w₀ w pages rows) (hwidth : r.width = r.schema.width)
    (hr : ¬ r.Storable w₀.schema) :
    ∃ e, w.store r = (.error e, w) ∧ r.Fault w₀.schema e := by
  rcases hcheck : w.page.check r with e | ⟨⟩
  · refine ⟨e, ?_, h.current.schema_eq ▸ Page.fault_of_check hcheck⟩
    rw [Writer.store, Page.insert_eq_error hcheck]
  · rw [Page.check_eq_ok_iff hwidth, h.current.schema_eq] at hcheck
    exact absurd hcheck hr

/-- Before a row is looked at, there are as many pages as the rows so far fill; if there cannot be,
it is not looked at. -/
lemma makeRoom (h : Loaded w₀ w pages rows) (r : Row) :
    (w₀.layout.Admits (rows.length / w₀.layout.slots) → ∃ w₁ pages₁, Loaded w₀ w₁ pages₁ rows ∧
      pages₁.length = rows.length / w₀.layout.slots ∧ w.appendBounded r = .ok (w₁.store r)) ∧
    (¬ w₀.layout.Admits (rows.length / w₀.layout.slots) →
      ∃ promise, w.appendBounded r = .error (.violation promise)) := by
  have hpos := h.valid.1
  by_cases hfull : rows.length = (pages.length + 1) * w₀.layout.slots
  · have hfree := h.freeCount_eq_zero_iff.2 hfull
    have hpages : w.usage.pages = pages.length := h.count
    have hcount : rows.length / w₀.layout.slots = w.usage.pages + 1 := by
      rw [hfull, Nat.mul_div_cancel _ hpos, hpages]
    obtain ⟨hok, hnone⟩ := h.toFilled.map_checkPage (w.append r)
    rw [hcount, appendBounded_of_full hfree]
    refine ⟨fun hadmits => ?_, hnone⟩
    obtain ⟨w₁, hfinish, hloaded⟩ := h.finishPage hfull (hpages ▸ hadmits)
    refine ⟨w₁, _, hloaded, by rw [List.length_append, List.length_singleton, hpages], ?_⟩
    rw [hok hadmits, append_of_full hfree hfinish]
  · -- There is room already, so the pages so far are those that the rows fill.
    have hfree : w.page.freeCount ≠ 0 := fun hzero => hfull (h.freeCount_eq_zero_iff.1 hzero)
    have hcount : rows.length / w₀.layout.slots = pages.length := by
      have hle := h.length_le
      have hwhole := h.whole
      rw [Nat.div_eq_iff hpos]
      rw [Nat.succ_mul] at hfull hle
      omega
    rw [hcount]
    refine ⟨fun _ => ⟨w, pages, h, rfl, ?_⟩, fun hadmits => absurd h.admits hadmits⟩
    rw [appendBounded_of_free hfree, append_of_free hfree]

/-! ## All rows -/

/-- Rows that can be stored are added, unless there are more pages in them than can be written
out. -/
lemma finishAllBounded_append (h : Loaded w₀ w pages rows) {front : List Row}
    (hwidth : ∀ r ∈ front, r.width = r.schema.width)
    (hfront : ∀ r ∈ front, r.Storable w₀.schema) :
    (∃ w' pages', Loaded w₀ w' pages' (rows ++ front) ∧
      ∀ rest, w.finishAllBounded (front ++ rest) = w'.finishAllBounded rest) ∨
    (¬ w₀.layout.Admits ((rows ++ front).length / w₀.layout.slots) ∧
      ∃ promise, ∀ rest, w.finishAllBounded (front ++ rest) = .error (.violation promise)) := by
  induction front generalizing w pages rows with
  | nil => exact .inl ⟨w, pages, (List.append_nil rows).symm ▸ h, fun rest => rfl⟩
  | cons r front ih =>
    obtain ⟨hroom, hnone⟩ := h.makeRoom r
    by_cases hadmits : w₀.layout.Admits (rows.length / w₀.layout.slots)
    · obtain ⟨w₁, pages₁, h₁, hcount, happend⟩ := hroom hadmits
      have hfree : rows.length < (pages₁.length + 1) * w₀.layout.slots := by
        rw [hcount, Nat.succ_mul]
        exact Nat.lt_div_mul_add h.valid.1
      obtain ⟨w₂, hstore, h₂⟩ := h₁.store hfree (hwidth r List.mem_cons_self)
        (hfront r List.mem_cons_self)
      have hcons : ∀ rest, w.finishAllBounded (r :: front ++ rest) =
          w₂.finishAllBounded (front ++ rest) := by
        intro rest
        rw [List.cons_append, finishAllBounded, happend, hstore]
      have hsame : rows ++ r :: front = rows ++ [r] ++ front := by simp
      rw [hsame]
      simp only [hcons]
      exact ih h₂ (fun x hx => hwidth x (List.mem_cons_of_mem r hx))
        fun x hx => hfront x (List.mem_cons_of_mem r hx)
    · obtain ⟨promise, happend⟩ := hnone hadmits
      refine .inr ⟨fun hmore => hadmits (hmore.mono ?_), promise, fun rest => ?_⟩
      · rw [List.length_append]
        exact Nat.div_le_div_right (Nat.le_add_right _ _)
      · rw [List.cons_append, finishAllBounded, happend]

/-- At the end, the rows are on as many pages as they need. -/
lemma finishBounded (h : Loaded w₀ w pages rows) :
    (w₀.layout.Admits (rows.length ⌈/⌉ w₀.layout.slots) → ∃ w' pages',
      w.finishBounded = .ok (.ok pages'.length, w') ∧ Filled w₀ w' pages' ∧
        pages'.length = rows.length ⌈/⌉ w₀.layout.slots ∧ ∀ n (hn : n < pages'.length),
          pages'[n].rows.map Row.fields = (w₀.layout.rowsOn rows n).map Row.fields) ∧
    (¬ w₀.layout.Admits (rows.length ⌈/⌉ w₀.layout.slots) →
      ∃ promise, w.finishBounded = .error (.violation promise)) := by
  have hpos := h.valid.1
  have hle := h.length_le
  have hwhole := h.whole
  have hleft : w.page.rowCount = rows.length - pages.length * w₀.layout.slots := by
    rw [Page.rowCount_eq, h.length_rows]
  rw [Nat.succ_mul] at hle
  by_cases hrows : 0 < w.page.rowCount
  · have hpages : w.usage.pages = pages.length := h.count
    have hcount : rows.length ⌈/⌉ w₀.layout.slots = w.usage.pages + 1 := by
      rw [Nat.ceilDiv_eq_add_pred_div, hpages, Nat.div_eq_iff hpos, Nat.succ_mul]
      omega
    obtain ⟨hok, hnone⟩ := h.toFilled.map_checkPage w.finish
    rw [hcount, finishBounded_of_rows hrows]
    refine ⟨fun hadmits => ?_, hnone⟩
    obtain ⟨w', hfinish, hfilled, -⟩ := h.toFilled.finishPage
    refine ⟨w', _, ?_, hfilled, ?_, h.rows_eq_concat⟩
    · rw [hok hadmits, Writer.finish, if_pos hrows, hfinish, ← hfilled.count]
    · rw [List.length_append, List.length_singleton, hpages]
  · have hcount : rows.length ⌈/⌉ w₀.layout.slots = pages.length := by
      rw [Nat.ceilDiv_eq_add_pred_div, Nat.div_eq_iff hpos]
      omega
    rw [hcount]
    refine ⟨fun _ => ⟨w, pages, ?_, h.toFilled, rfl, h.rows_eq⟩, fun hadmits => ?_⟩
    · rw [finishBounded_of_none hrows, Writer.finish, if_neg hrows, h.count]
    · exact absurd h.admits hadmits

end Loaded

/-! ## The file -/

lemma Filled.packs (h : Filled w₀ w pages) (htable : w₀.table = TableId.ofPath w₀.path)
    (hrows : ∀ n (hn : n < pages.length),
      pages[n].rows.map Row.fields = (w₀.layout.rowsOn rows n).map Row.fields)
    (hstorable : ∀ r ∈ rows, r.Storable w₀.schema) (hadmits : w₀.layout.Admits pages.length)
    (d : Disk) : Packs (w.flush d) w₀.path w₀.schema w₀.layout pages.length rows := by
  obtain ⟨images, himages, houtput, -⟩ := h.exists_images
  have hcontent : (w.flush d).content w₀.path = .ok (.ofList w.output) := by
    rw [flush, h.path_eq, Disk.content_put]
  have hlength : (w.flush d).lengthOf w₀.path = .ok w.output.length := by
    rw [Disk.lengthOf_of_content hcontent, ← SparseBytes.length_toList, SparseBytes.toList_ofList]
  refine ⟨by rw [hlength, h.length_output], ⟨pages, images, rfl, himages, houtput ▸ hcontent,
    fun n hn => ?_⟩, fun hbounded f hid hpath hlayout hshape => ?_⟩
  · have hmade := h.finished n hn
    exact ⟨hmade.packed, htable ▸ hmade.id_eq, hmade.schema_eq, hmade.layout_eq, hrows n hn⟩
  · rw [← hpath] at hcontent hlength
    obtain ⟨hpages, hread⟩ := h.readPage_eq (hid.trans htable.symm) hlayout hshape hcontent hlength
      hadmits.1 hbounded
    refine ⟨hpages, fun n hn => ⟨pages[n].keep f.schema, ?_, ?_⟩⟩
    · have hstride : f.layout.stride ≤ Size.bufferLimit :=
        hlayout ▸ hadmits.2 (Nat.lt_of_le_of_lt (Nat.zero_le n) hn)
      rw [HeapFile.readPageBounded_of_le hstride, hread n hn]
      rfl
    · rw [Page.rows_keep]
      refine forall₂_keeps_of_storable hshape (fun r hr => hstorable r ?_) (hrows n hn)
      exact List.mem_of_mem_drop (List.mem_of_mem_take hr)

variable {d d₀ : Disk} {name path : String} {schema : Schema} {pageSize : ℕ} {layout : PageLayout}

lemma writeRowsBounded_of_create (hcount : schema.byteSize ≤ Size.limit)
    (hcreate : create d name schema pageSize = .ok (w₀, d₀)) (rows : List Row) :
    writeRowsBounded d name schema pageSize rows =
      (w₀.finishAllBounded rows).map fun x => (x.1, x.2.flush d₀) := by
  rw [writeRowsBounded, Size.check, Size.within_of_le hcount, hcreate]
  show (do let x ← w₀.finishAllBounded rows; return (x.1, x.2.flush d₀)) = _
  rcases w₀.finishAllBounded rows with e | x <;> rfl

/-- Writing begins with no rows and no pages, wherever a file can be created. -/
lemma exists_loaded (hpath : d.locate name = .ok path)
    (hlayout : (PageLayout.mk pageSize schema.byteSize schema.byteSize_pos).validate = .ok layout)
    (hcount : schema.byteSize ≤ Size.limit) : ∃ w₀ d₀, Loaded w₀ w₀ [] [] ∧ w₀.path = path ∧
      w₀.table = TableId.ofPath path ∧ w₀.schema = schema ∧ w₀.layout = layout ∧
      ∀ rows, writeRowsBounded d name schema pageSize rows =
        (w₀.finishAllBounded rows).map fun x => (x.1, x.2.flush d₀) := by
  obtain ⟨hvalid, rfl⟩ := (PageLayout.validate_eq_ok_iff _ _).1 hlayout
  obtain ⟨w₀, d₀, hcreate⟩ := exists_create hpath hvalid
  obtain ⟨hfilled, hempty, htable, hschema, hsame, hlocate, -⟩ := create_eq_ok hcreate
  obtain rfl := Except.ok.inj (hlocate.symm.trans hpath)
  refine ⟨w₀, d₀, ⟨hfilled, fun n hn => absurd hn (Nat.not_lt_zero n), ?_,
    Nat.le_of_eq (Nat.zero_mul _), w₀.layout.admits_zero⟩, rfl, htable, hschema, hsame,
    writeRowsBounded_of_create hcount hcreate⟩
  rw [hempty, List.drop_nil]

/-- If all rows can be stored, they are all in the file. -/
lemma writeRowsBounded_of_storable (hpath : d.locate name = .ok path)
    (hlayout : (PageLayout.mk pageSize schema.byteSize schema.byteSize_pos).validate = .ok layout)
    (hcount : schema.byteSize ≤ Size.limit) (hwidth : ∀ r ∈ rows, r.width = r.schema.width)
    (hrows : ∀ r ∈ rows, r.Storable schema) :
    (layout.Admits (rows.length ⌈/⌉ layout.slots) → ∃ d',
      writeRowsBounded d name schema pageSize rows =
        .ok (.ok (rows.length ⌈/⌉ layout.slots), d') ∧
      Packs d' path schema layout (rows.length ⌈/⌉ layout.slots) rows) ∧
    (¬ layout.Admits (rows.length ⌈/⌉ layout.slots) → ∃ promise,
      writeRowsBounded d name schema pageSize rows = .error (.violation promise)) := by
  obtain ⟨w₀, d₀, hloaded, rfl, htable, rfl, rfl, hwrite⟩ := exists_loaded hpath hlayout hcount
  rw [hwrite]
  rcases hloaded.finishAllBounded_append hwidth hrows with
    ⟨w, pages, h, hrun⟩ | ⟨hnone, promise, hrun⟩
  · have hend : w₀.finishAllBounded rows = w.finishBounded := by
      have hend := hrun []
      rwa [List.append_nil] at hend
    rw [List.nil_append] at h
    rw [hend]
    obtain ⟨hfinish, hnone⟩ := h.finishBounded
    constructor
    · intro hadmits
      obtain ⟨w', pages', hfinished, hfilled, hpages, hrows'⟩ := hfinish hadmits
      rw [← hpages] at hadmits ⊢
      refine ⟨w'.flush d₀, by rw [hfinished]; rfl, ?_⟩
      exact hfilled.packs htable hrows' hrows hadmits d₀
    · intro hadmits
      obtain ⟨promise, hfinished⟩ := hnone hadmits
      exact ⟨promise, by rw [hfinished]; rfl⟩
  · -- Some page in front of the last cannot be written out, so the last cannot be either.
    have hend := hrun []
    rw [List.append_nil] at hend
    rw [List.nil_append] at hnone
    refine ⟨fun hadmits => absurd (hadmits.mono ?_) hnone, fun _ => ⟨promise, by rw [hend]; rfl⟩⟩
    have hpos := hloaded.valid.1
    rw [Nat.ceilDiv_eq_add_pred_div]
    exact Nat.div_le_div_right (by omega)

/-- If a row cannot be stored, the pages that the rows in front of it fill are in the file. -/
lemma writeRowsBounded_of_refused (hpath : d.locate name = .ok path)
    (hlayout : (PageLayout.mk pageSize schema.byteSize schema.byteSize_pos).validate = .ok layout)
    (hcount : schema.byteSize ≤ Size.limit) {front : List Row}
    (hwidth : ∀ r ∈ front, r.width = r.schema.width) (hfront : ∀ r ∈ front, r.Storable schema)
    (hwidth' : r.width = r.schema.width) (hr : ¬ r.Storable schema) (rest : List Row) :
    (layout.Admits (front.length / layout.slots) → ∃ e d',
      writeRowsBounded d name schema pageSize (front ++ r :: rest) = .ok (.error e, d') ∧
      r.Fault schema e ∧
      Packs d' path schema layout (front.length / layout.slots)
        (front.take (front.length / layout.slots * layout.slots))) ∧
    (¬ layout.Admits (front.length / layout.slots) → ∃ promise,
      writeRowsBounded d name schema pageSize (front ++ r :: rest) =
        .error (.violation promise)) := by
  obtain ⟨w₀, d₀, hloaded, rfl, htable, rfl, rfl, hwrite⟩ := exists_loaded hpath hlayout hcount
  rw [hwrite]
  rcases hloaded.finishAllBounded_append hwidth hfront with
    ⟨w, pages, h, hrun⟩ | ⟨hnone, promise, hrun⟩
  · rw [List.nil_append] at h
    rw [hrun, finishAllBounded]
    obtain ⟨hroom, hnone⟩ := h.makeRoom r
    constructor
    · intro hadmits
      obtain ⟨w₁, pages₁, h₁, hpages, happend⟩ := hroom hadmits
      obtain ⟨e, hstore, hfault⟩ := h₁.store_eq_error hwidth' hr
      rw [happend, hstore]
      refine ⟨e, w₁.flush d₀, rfl, hfault, ?_⟩
      rw [← hpages] at hadmits ⊢
      refine h₁.toFilled.packs htable (fun n hn => ?_) (fun x hx => ?_) hadmits d₀
      · rw [PageLayout.rowsOn_take hn]
        exact h₁.rows_eq n hn
      · exact hfront x (List.mem_of_mem_take hx)
    · intro hadmits
      obtain ⟨promise, happend⟩ := hnone hadmits
      exact ⟨promise, by rw [happend]; rfl⟩
  · rw [List.nil_append] at hnone
    exact ⟨fun hadmits => absurd hadmits hnone, fun _ => ⟨promise, by rw [hrun]; rfl⟩⟩

/-- Either all rows can be stored, or there is a first that cannot be. -/
lemma storable_or_exists_first (schema : Schema) (rows : List Row) :
    (∀ r ∈ rows, r.Storable schema) ∨ ∃ (front : List Row) (r : Row) (rest : List Row),
      rows = front ++ r :: rest ∧ (∀ x ∈ front, x.Storable schema) ∧ ¬ r.Storable schema := by
  rcases hfind : rows.find? fun r => !decide (r.Storable schema) with _ | r
  · left
    rw [List.find?_eq_none] at hfind
    simpa using hfind
  · right
    obtain ⟨hr, front, rest, hrows, hfront⟩ := List.find?_eq_some_iff_append.1 hfind
    exact ⟨front, r, rest, hrows, by simpa using hfront, by simpa using hr⟩

/-- **Rows that are written at once are packed, and a row that is refused leaves whole pages.**
With every usable layout and wherever a file can be created, rows are all written exactly if all of
them can be stored and the pages that they need can be written out.  The file then has these pages,
with the rows packed in them.  Otherwise the first row that cannot be stored is told of, and the
file has exactly the pages that the rows in front of it fill.  If these are more than can be written
out, there is no answer. -/
theorem writeRowsBounded_packs (hpath : d.locate name = .ok path)
    (hlayout : (PageLayout.mk pageSize schema.byteSize schema.byteSize_pos).validate = .ok layout)
    (hcount : schema.byteSize ≤ Size.limit) (hwidth : ∀ r ∈ rows, r.width = r.schema.width) :
    ((∃ count d', writeRowsBounded d name schema pageSize rows = .ok (.ok count, d')) ↔
      (∀ r ∈ rows, r.Storable schema) ∧ layout.Admits (rows.length ⌈/⌉ layout.slots)) ∧
    ((∀ r ∈ rows, r.Storable schema) →
      (layout.Admits (rows.length ⌈/⌉ layout.slots) → ∃ d',
        writeRowsBounded d name schema pageSize rows =
          .ok (.ok (rows.length ⌈/⌉ layout.slots), d') ∧
        Packs d' path schema layout (rows.length ⌈/⌉ layout.slots) rows) ∧
      (¬ layout.Admits (rows.length ⌈/⌉ layout.slots) → ∃ promise,
        writeRowsBounded d name schema pageSize rows = .error (.violation promise))) ∧
    ∀ (front : List Row) (r : Row) (rest : List Row), rows = front ++ r :: rest →
      (∀ x ∈ front, x.Storable schema) → ¬ r.Storable schema →
        (layout.Admits (front.length / layout.slots) → ∃ e d',
          writeRowsBounded d name schema pageSize rows = .ok (.error e, d') ∧ r.Fault schema e ∧
          Packs d' path schema layout (front.length / layout.slots)
            (front.take (front.length / layout.slots * layout.slots)) ∧
          ∀ n < front.length / layout.slots, (layout.rowsOn
            (front.take (front.length / layout.slots * layout.slots)) n).length = layout.slots) ∧
        (¬ layout.Admits (front.length / layout.slots) → ∃ promise,
          writeRowsBounded d name schema pageSize rows = .error (.violation promise)) := by
  have hall := writeRowsBounded_of_storable hpath hlayout hcount hwidth
  have hfirst (front : List Row) (r : Row) (rest : List Row) (hrows : rows = front ++ r :: rest)
      (hfront : ∀ x ∈ front, x.Storable schema) (hr : ¬ r.Storable schema) :=
    writeRowsBounded_of_refused hpath hlayout hcount
      (fun x hx => hwidth x (hrows ▸ List.mem_append_left _ hx)) hfront
      (hwidth r (hrows ▸ List.mem_append_right _ List.mem_cons_self)) hr rest
  refine ⟨⟨?_, ?_⟩, hall, ?_⟩
  · rintro ⟨count, d', hwritten⟩
    rcases storable_or_exists_first schema rows with hrows | ⟨front, r, rest, rfl, hfront, hr⟩
    · refine ⟨hrows, ?_⟩
      by_contra hadmits
      obtain ⟨promise, hviolation⟩ := (hall hrows).2 hadmits
      cases hwritten.symm.trans hviolation
    · obtain ⟨hrefused, hviolation⟩ := hfirst front r rest rfl hfront hr
      by_cases hadmits : layout.Admits (front.length / layout.slots)
      · obtain ⟨e, d'', herror, -⟩ := hrefused hadmits
        cases hwritten.symm.trans herror
      · obtain ⟨promise, hnone⟩ := hviolation hadmits
        cases hwritten.symm.trans hnone
  · rintro ⟨hrows, hadmits⟩
    obtain ⟨d', hwritten, -⟩ := (hall hrows).1 hadmits
    exact ⟨_, d', hwritten⟩
  · rintro front r rest rfl hfront hr
    obtain ⟨hrefused, hviolation⟩ := hfirst front r rest rfl hfront hr
    refine ⟨fun hadmits => ?_, hviolation⟩
    obtain ⟨e, d', herror, hfault, hpacks⟩ := hrefused hadmits
    refine ⟨e, d', herror, hfault, hpacks, fun n hn => ?_⟩
    have hfull : (n + 1) * layout.slots ≤ front.length :=
      Nat.le_trans (Nat.mul_le_mul_right _ hn) (Nat.div_mul_le_self _ _)
    rw [PageLayout.rowsOn_take hn, PageLayout.length_rowsOn hfull]

/-- Three labels take up two pages.  With a row in their midst that cannot be stored, the file keeps
the page that was full. -/
theorem writeRowsBounded_packs_labels : ∃ d₁ e d₂,
    writeRowsBounded (Disk.ofHome []) "t" labels 20 [label 7 "abc", label 9 "", label 1 "x"] =
        .ok (.ok 2, d₁) ∧
      Packs d₁ "/t" labels ⟨20, 10, by decide⟩ 2 [label 7 "abc", label 9 "", label 1 "x"] ∧
      writeRowsBounded (Disk.ofHome []) "t" labels 20
          [label 7 "abc", label 9 "", .unset labels, label 1 "x"] = .ok (.error e, d₂) ∧
      (Row.unset labels).Fault labels e ∧
      Packs d₂ "/t" labels ⟨20, 10, by decide⟩ 1 [label 7 "abc", label 9 ""] := by
  have hlayout : (PageLayout.mk 20 labels.byteSize labels.byteSize_pos).validate =
      .ok ⟨20, 10, by decide⟩ := (PageLayout.validate_eq_ok_iff _ _).2 ⟨by decide, rfl⟩
  have hcount : labels.byteSize ≤ Size.limit := by decide
  have hone : (⟨20, 10, by decide⟩ : PageLayout).Admits 1 := ⟨by decide, fun _ => by decide⟩
  have htwo : (⟨20, 10, by decide⟩ : PageLayout).Admits 2 := ⟨by decide, fun _ => by decide⟩
  have hwidth : ∀ r ∈ [label 7 "abc", label 9 "", label 1 "x"], r.width = r.schema.width := by
    decide
  have hwidth' : ∀ r ∈ [label 7 "abc", label 9 "", .unset labels, label 1 "x"],
      r.width = r.schema.width := by decide
  obtain ⟨-, hall, -⟩ := writeRowsBounded_packs locate_label hlayout hcount hwidth
  obtain ⟨-, -, hfirst⟩ := writeRowsBounded_packs locate_label hlayout hcount hwidth'
  obtain ⟨d₁, hwritten, hpacks⟩ := (hall (by decide)).1 htwo
  obtain ⟨e, d₂, herror, hfault, hpacks', -⟩ :=
    (hfirst [label 7 "abc", label 9 ""] (.unset labels) [label 1 "x"] rfl (by decide) (by decide)).1
      hone
  exact ⟨d₁, e, d₂, hwritten, hpacks, herror, hfault, hpacks'⟩

/-- A row for a page that cannot be held. -/
def vastRow : Row := ⟨HeapFile.vastFile.schema, [some (.text "x")], none⟩

/-- A row that fills a page of four bytes. -/
def tally : Row := ⟨Plan.numbers, [some (.int 1)], none⟩

/-- Rows that can be stored are not all written, although the layout is usable: one whose page
cannot be held, or so many that the last of their pages has no number. -/
theorem writeRowsBounded_out_of_bounds :
    (Page.vastLayout.validate = .ok Page.vastLayout ∧ vastRow.Storable HeapFile.vastFile.schema ∧
      ∃ promise, writeRowsBounded (Disk.ofHome []) "t" HeapFile.vastFile.schema
        Page.vastLayout.pageSize [vastRow] = .error (.violation promise)) ∧
    (PageLayout.mk 4 4 (by decide)).validate = .ok ⟨4, 4, by decide⟩ ∧
      tally.Storable Plan.numbers ∧
      ∃ promise, writeRowsBounded (Disk.ofHome []) "t" Plan.numbers 4
        (List.replicate 4294967296 tally) = .error (.violation promise) := by
  have hvast : Page.vastLayout.validate = .ok Page.vastLayout :=
    (PageLayout.validate_eq_ok_iff _ _).2 ⟨by decide, rfl⟩
  have hsmall : (PageLayout.mk 4 4 (by decide)).validate = .ok ⟨4, 4, by decide⟩ :=
    (PageLayout.validate_eq_ok_iff _ _).2 ⟨by decide, rfl⟩
  refine ⟨⟨hvast, by decide, ?_⟩, hsmall, by decide, ?_⟩
  · refine (writeRowsBounded_of_storable locate_label hvast (by decide) (by decide)
      (by decide)).2 fun hadmits => ?_
    exact absurd (hadmits.2 (by decide)) (by decide)
  · refine (writeRowsBounded_of_storable locate_label hsmall (by decide) (fun r hr => ?_)
      fun r hr => ?_).2 fun hadmits => ?_
    · rw [List.eq_of_mem_replicate hr]
      rfl
    · rw [List.eq_of_mem_replicate hr]
      decide
    · rw [List.length_replicate] at hadmits
      exact absurd hadmits.1 (by decide)

end Writer

end RowStore
