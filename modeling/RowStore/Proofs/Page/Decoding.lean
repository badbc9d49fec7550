import RowStore.Data.Results
import RowStore.HeapFile.Basic

/-!
# Pages that were decoded

Whatever the bytes are, the rows of a decoded page have the schema that they were decoded with and
one field for each of its columns, whose value is of the type of the column.  So the same goes for
all rows of a heap file.

A slot of a heap file is as large as the rows of its schema, so any bytes can be decoded there
(`Page.exists_decode_of_size`), and every page of a file can be read that is a file and no directory
(`HeapFile.exists_pages`).
-/

namespace RowStore

/-- A row has one value for each column of some types, and each is of the type of its column. -/
def Row.Matches (shape : List ColumnType) (r : Row) : Prop :=
  List.Forall₂ (fun ty field => ∃ v : Value, field = some v ∧ v.fits ty = true) shape r.fields

lemma Row.Matches.width_eq {schema : Schema} {r : Row} (h : r.Matches schema.shape) :
    r.width = schema.width := by
  rw [Row.width, ← h.length_eq, Schema.length_shape]

lemma Value.fits_readField (ty : ColumnType) (bs : Bytes) : (readField ty bs).fits ty = true := by
  cases ty <;> rfl

lemma Value.fits_of_readRow {types : List ColumnType} {room : ℕ} {bs : Bytes} {values : List Value}
    (h : readRow types room bs = .ok values) :
    List.Forall₂ (fun ty v => Value.fits v ty = true) types values := by
  induction types generalizing room bs values with
  | nil =>
    cases h
    exact .nil
  | cons ty types ih =>
    rw [readRow] at h
    split at h
    · cases h
    · rcases hrest : readRow types (room - ty.width) (bs.drop ty.width) with e | rest <;>
        rw [hrest] at h <;> cases h
      exact .cons (fits_readField ty bs) (ih hrest)

lemma Value.exists_readRow_of_le {types : List ColumnType} {room : ℕ}
    (hroom : ColumnType.totalWidth types ≤ room) (bs : Bytes) :
    ∃ values, readRow types room bs = .ok values := by
  induction types generalizing room bs with
  | nil => exact ⟨[], rfl⟩
  | cons ty types ih =>
    rw [ColumnType.totalWidth] at hroom
    obtain ⟨values, hvalues⟩ := ih (Nat.le_sub_of_add_le' hroom) (bs.drop ty.width)
    refine ⟨readField ty bs :: values, ?_⟩
    rw [readRow, if_neg (by omega), hvalues]
    rfl

namespace Page

lemma mem_rows_iff (p : Page) (row : Row) : row ∈ p.rows ↔ some row ∈ p.entries := by
  simp [rows]

lemma decodeRow_fits {p : Page} {slot : ℕ} {image : Bytes} {row : Row}
    (h : p.decodeRow slot image = .ok row) :
    row.schema = p.schema ∧ row.Matches p.schema.shape := by
  rw [decodeRow] at h
  split at h
  · next values hvalues =>
    cases h
    refine ⟨rfl, List.forall₂_map_right_iff.2 ?_⟩
    exact (Value.fits_of_readRow hvalues).imp fun ty v hfits => ⟨v, rfl, hfits⟩
  · cases h

/-- A page that was decoded consists of what its images were decoded to. -/
lemma exists_entries_of_decode {id : PageId} {schema : Schema} {layout : PageLayout} {data : Bytes}
    {p : Page} (h : decode id schema layout data = .ok p) :
    ∃ entries, ((Bytes.pieces layout.rowSize layout.slots
        (data.drop layout.headerBytes)).zipIdx.mapM fun x =>
          ({ empty id schema layout with bitmap := decodeBitmap layout data } : Page).decodeEntry
            x.1 x.2) = .ok entries ∧
      p = { empty id schema layout with
        bitmap := decodeBitmap layout data
        entries := entries } := by
  simp only [decode] at h
  rcases hentries : (Bytes.pieces layout.rowSize layout.slots
      (data.drop layout.headerBytes)).zipIdx.mapM fun x =>
        ({ empty id schema layout with bitmap := decodeBitmap layout data } : Page).decodeEntry
          x.1 x.2 with e | entries <;> rw [hentries] at h <;> cases h
  exact ⟨entries, hentries, rfl⟩

lemma id_of_decode {id : PageId} {schema : Schema} {layout : PageLayout} {data : Bytes} {p : Page}
    (h : decode id schema layout data = .ok p) : p.id = id := by
  obtain ⟨entries, -, rfl⟩ := exists_entries_of_decode h
  rfl

lemma decode_matches {id : PageId} {schema : Schema} {layout : PageLayout} {data : Bytes} {p : Page}
    (h : decode id schema layout data = .ok p) :
    ∀ row ∈ p.rows, row.schema = schema ∧ row.Matches schema.shape := by
  intro row hrow
  rw [mem_rows_iff] at hrow
  obtain ⟨entries, hentries, rfl⟩ := exists_entries_of_decode h
  obtain ⟨⟨image, slot⟩, -, hentry⟩ := mem_of_mapM_eq_ok hentries hrow
  rw [decodeEntry] at hentry
  split at hentry
  · rcases hdecode : decodeRow _ slot image with e | row' <;> rw [hdecode] at hentry
    · cases hentry
    · cases hentry
      exact decodeRow_fits hdecode
  · cases hentry

lemma decode_fits {id : PageId} {schema : Schema} {layout : PageLayout} {data : Bytes} {p : Page}
    (h : decode id schema layout data = .ok p) :
    ∀ row ∈ p.rows, row.schema = schema ∧ row.width = schema.width := by
  intro row hrow
  obtain ⟨hschema, hmatches⟩ := decode_matches h row hrow
  exact ⟨hschema, hmatches.width_eq⟩

lemma exists_decodeRow (p : Page) (hsize : p.layout.rowSize = p.schema.byteSize) (slot : ℕ)
    (image : Bytes) : ∃ row, p.decodeRow slot image = .ok row := by
  have hroom : ColumnType.totalWidth p.schema.shape ≤ p.layout.rowSize := Nat.le_of_eq hsize.symm
  obtain ⟨values, hvalues⟩ := Value.exists_readRow_of_le hroom image
  exact ⟨_, by rw [decodeRow, hvalues]⟩

/-- If the slots are as large as rows of the schema, any bytes can be decoded. -/
lemma exists_decode_of_size {schema : Schema} {layout : PageLayout}
    (hsize : layout.rowSize = schema.byteSize) (id : PageId) (data : Bytes) :
    ∃ p, decode id schema layout data = .ok p := by
  set marked : Page := { empty id schema layout with bitmap := decodeBitmap layout data }
  obtain ⟨entries, hentries, -⟩ := exists_mapM_eq_ok (P := fun _ _ => True)
    (f := fun x : Bytes × ℕ => marked.decodeEntry x.1 x.2)
    (l := (Bytes.pieces layout.rowSize layout.slots (data.drop layout.headerBytes)).zipIdx)
    fun i hi => by
      rw [decodeEntry]
      split
      · obtain ⟨row, hrow⟩ := marked.exists_decodeRow hsize _ _
        exact ⟨some row, by rw [hrow]; rfl, trivial⟩
      · exact ⟨none, rfl, trivial⟩
  refine ⟨{ marked with entries := entries }, ?_⟩
  simp only [decode]
  rw [hentries]
  rfl

end Page

namespace HeapFile

variable {f : HeapFile} {d : Disk}

/-- A page that exists is what its bytes decode to. -/
lemma readPage_of_lt {page : PageId} {count : ℕ} (htable : page.table = f.id)
    (hcount : f.pageCount d = .ok count) (hlt : page.number.toNat < count) :
    f.readPage d page =
      (d.read f.path (f.layout.pageOffset page.number.toNat) f.layout.stride).bind
        (Page.decode page f.schema f.layout) := by
  have hle : ¬ count ≤ page.number.toNat := Nat.not_le.2 hlt
  simp [readPage, htable, hcount, hle, bind, Except.bind]

lemma lt_of_readPage {page : PageId} {p : Page} (h : f.readPage d page = .ok p) :
    page.table = f.id ∧ ∃ count, f.pageCount d = .ok count ∧ page.number.toNat < count := by
  by_cases htable : page.table = f.id
  · rcases hcount : f.pageCount d with e | count
    · simp [readPage, htable, hcount, bind, Except.bind] at h
    · refine ⟨htable, count, rfl, Nat.lt_of_not_le fun hle => ?_⟩
      simp [readPage, htable, hcount, hle, bind, Except.bind, throw, throwThe,
        MonadExceptOf.throw] at h
  · simp [readPage, htable, bind, Except.bind, throw, throwThe, MonadExceptOf.throw] at h

/-- A page that was read was decoded from the content of the file, with its schema and layout. -/
lemma exists_content_of_readPage {page : PageId} {p : Page} (h : f.readPage d page = .ok p) :
    ∃ content data, d.content f.path = .ok content ∧
      Page.decode page f.schema f.layout data = .ok p := by
  obtain ⟨htable, count, hcount, hlt⟩ := lt_of_readPage h
  rw [readPage_of_lt htable hcount hlt, Disk.read] at h
  rcases hcontent : d.content f.path with e | content <;> rw [hcontent] at h
  · cases h
  · exact ⟨content, _, rfl, h⟩

lemma exists_decode_of_readPage {page : PageId} {p : Page} (h : f.readPage d page = .ok p) :
    ∃ data, Page.decode page f.schema f.layout data = .ok p := by
  obtain ⟨content, data, -, hdecode⟩ := exists_content_of_readPage h
  exact ⟨data, hdecode⟩

lemma readPage_fits {page : PageId} {p : Page} (h : f.readPage d page = .ok p) :
    ∀ row ∈ p.rows, row.schema = f.schema ∧ row.width = f.schema.width := by
  obtain ⟨data, hdecode⟩ := exists_decode_of_readPage h
  exact Page.decode_fits hdecode

/-- The numbers of the pages of a file can be told apart. -/
lemma toNat_ofNat_of_lt {count n : ℕ} (hcount : f.pageCount d = .ok count) (hlt : n < count) :
    (UInt32.ofNat n).toNat = n := by
  have hle : count ≤ PageLayout.maxPages := by
    rw [pageCount] at hcount
    rcases hlength : d.lengthOf f.path with e | length
    · simp [hlength, bind, Except.bind] at hcount
    · simp only [hlength, bind, Except.bind, PageLayout.pageCount] at hcount
      split at hcount
      · next hle =>
        cases hcount
        exact hle
      · cases hcount
  rw [UInt32.toNat_ofNat', Nat.mod_eq_of_lt]
  exact Nat.lt_of_lt_of_le hlt (Nat.le_trans hle (by decide))

/-- What is read of a file depends on its content only. -/
lemma readPage_congr {d' : Disk} {content : SparseBytes} (h : d.content f.path = .ok content)
    (h' : d'.content f.path = .ok content) (page : PageId) :
    f.readPage d page = f.readPage d' page := by
  have hlength : d.lengthOf f.path = d'.lengthOf f.path := by
    rw [Disk.lengthOf_of_content h, Disk.lengthOf_of_content h']
  simp only [readPage, pageCount, hlength, Disk.read, h, h']

/-- All pages of a file can be read, if a file is there and no directory. -/
lemma exists_pages {content : SparseBytes} (hcontent : d.content f.path = .ok content) {count : ℕ}
    (hcount : f.pageCount d = .ok count) :
    ∃ pages : List Page, pages.length = count ∧
      ∀ n (h : n < pages.length), f.readPage d ⟨f.id, UInt32.ofNat n⟩ = .ok pages[n] := by
  have hpage : ∀ n < count, ∃ page, f.readPage d ⟨f.id, UInt32.ofNat n⟩ = .ok page := by
    intro n hlt
    have hnumber : (UInt32.ofNat n).toNat < count := by rwa [toNat_ofNat_of_lt hcount hlt]
    obtain ⟨page, hpage⟩ := Page.exists_decode_of_size f.rowSize_eq ⟨f.id, UInt32.ofNat n⟩
      (content.slice (f.layout.pageOffset (UInt32.ofNat n).toNat) f.layout.stride)
    refine ⟨page, ?_⟩
    rw [readPage_of_lt rfl hcount hnumber, Disk.read, hcontent]
    exact hpage
  obtain ⟨pages, hpages, hread⟩ := exists_mapM_eq_ok (l := List.range count)
    (f := fun n => f.readPage d ⟨f.id, UInt32.ofNat n⟩)
    (P := fun n page => f.readPage d ⟨f.id, UInt32.ofNat n⟩ = .ok page) fun n hn => by
      rw [List.getElem_range]
      obtain ⟨page, hpage⟩ := hpage n (by simpa using hn)
      exact ⟨page, hpage, hpage⟩
  exact ⟨pages, by rw [length_of_mapM_eq_ok hpages, List.length_range], hread⟩

/-- The rows of a file are those of its pages. -/
lemma contents_eq_error {e : Error} (hcount : f.pageCount d = .error e) :
    f.contents d = .error e := by
  rw [contents, hcount]
  rfl

lemma contents_eq_ok_iff {rows : List Row} :
    f.contents d = .ok rows ↔ ∃ pages : List Page, f.pageCount d = .ok pages.length ∧
      (∀ n (h : n < pages.length), f.readPage d ⟨f.id, UInt32.ofNat n⟩ = .ok pages[n]) ∧
      rows = pages.flatMap Page.rows := by
  rw [contents]
  rcases hcount : f.pageCount d with e | count
  · exact ⟨fun h => (by cases h), fun ⟨_, h, _⟩ => (by cases h)⟩
  · constructor
    · intro h
      rcases hpages : (List.range count).mapM fun n => f.readPage d ⟨f.id, UInt32.ofNat n⟩ with
        e | pages
      · simp [bind, Except.bind, hpages] at h
      · have hlength : pages.length = count := by
          rw [length_of_mapM_eq_ok hpages, List.length_range]
        refine ⟨pages, by rw [hlength], fun n hn => ?_, ?_⟩
        · have hpage := getElem_of_mapM_eq_ok hpages n (by rwa [List.length_range, ← hlength]) hn
          rwa [List.getElem_range] at hpage
        · simpa [bind, Except.bind, hpages, pure, Except.pure, eq_comm] using h
    · rintro ⟨pages, hlength, hread, rfl⟩
      cases hlength
      have hpages : (List.range pages.length).mapM
          (fun n => f.readPage d ⟨f.id, UInt32.ofNat n⟩) = .ok pages := by
        rw [mapM_eq_ok_iff, List.forall₂_iff_get]
        refine ⟨List.length_range, fun n hn hn' => ?_⟩
        rw [List.get_eq_getElem, List.get_eq_getElem, List.getElem_range]
        exact hread n hn'
      simp [bind, Except.bind, hpages, pure, Except.pure]

lemma contents_fits {rows : List Row} (h : f.contents d = .ok rows) :
    ∀ row ∈ rows, row.schema = f.schema ∧ row.width = f.schema.width := by
  obtain ⟨pages, -, hread, rfl⟩ := contents_eq_ok_iff.1 h
  intro row hrow
  obtain ⟨page, hpage, hrow⟩ := List.mem_flatMap.1 hrow
  obtain ⟨n, hn, rfl⟩ := List.getElem_of_mem hpage
  exact readPage_fits (hread n hn) row hrow

end HeapFile

end RowStore
