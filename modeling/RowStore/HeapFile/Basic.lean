import RowStore.Digest.Xxh3
import RowStore.Disk
import RowStore.Page.Codec

/-!
# Heap files

A heap file is the pages of one table, one behind the other, with nothing before, between or after
them.  Page `n` begins at byte `n * stride`.  A last page that the end of the file cuts short reads
as if it went on with zeros.

`HeapFile` is a handle on such a file.  It fixes how the bytes are read: the schema of the rows and
the layout of the pages, which is a usable one for rows of that schema.  The table's id is a digest
of the canonical path, so it does not depend on how the file was named.

A name that leads to a directory can be opened too.  A directory has a length, and so a number of
pages, but none of them can be read.

Rows are never changed in place, so inserting, deleting and writing back are refused.
-/

namespace RowStore

/-- The table id of the file with a canonical path. -/
def TableId.ofPath (path : String) : TableId :=
  ⟨Xxh3.digest (Utf8.encode path)⟩

/-- The table id of what a name leads to, which has to exist. -/
def Disk.tableId (d : Disk) (name : String) : Except Error TableId := do
  return TableId.ofPath (← d.resolve name)

/-- A handle on the file of a table. -/
structure HeapFile where
  id : TableId
  path : String
  schema : Schema
  layout : PageLayout
  rowSize_eq : layout.rowSize = schema.byteSize
  valid : layout.Valid
  deriving DecidableEq

namespace HeapFile

/-- The layout of pages that hold rows of a schema, if it is a usable one. -/
def layoutFor (schema : Schema) (pageSize : Nat) :
    Except Error { l : PageLayout // l.rowSize = schema.byteSize ∧ l.Valid } :=
  let layout : PageLayout := ⟨pageSize, schema.byteSize, schema.byteSize_pos⟩
  match h : layout.validate with
  | .error e => .error e
  | .ok _ => .ok ⟨layout, rfl, ((PageLayout.validate_eq_ok_iff _ _).1 h).1⟩

theorem layoutFor_eq_ok_iff (schema : Schema) (pageSize : Nat)
    (l : { l : PageLayout // l.rowSize = schema.byteSize ∧ l.Valid }) :
    layoutFor schema pageSize = .ok l ↔
      l.val = ⟨pageSize, schema.byteSize, schema.byteSize_pos⟩ := by
  simp only [layoutFor]
  split
  · next e h =>
    refine ⟨fun h' => (by cases h'), fun hl => ?_⟩
    have hvalid := (PageLayout.validate_eq_ok_iff _ _).2 ⟨hl ▸ l.property.2, rfl⟩
    rw [h] at hvalid
    cases hvalid
  · rw [Except.ok.injEq, Subtype.ext_iff]
    exact eq_comm

/-- Opens what a name leads to, which has to exist, for rows of the given schema. -/
def openNamed (d : Disk) (name : String) (schema : Schema) (pageSize : Nat) :
    Except Error HeapFile := do
  let path ← d.resolve name
  let layout ← layoutFor schema pageSize
  return {
    id := TableId.ofPath path
    path := path
    schema := schema
    layout := layout.val
    rowSize_eq := layout.property.1
    valid := layout.property.2 }

theorem schema_of_openNamed {d : Disk} {name : String} {schema : Schema} {pageSize : Nat}
    {f : HeapFile} (h : openNamed d name schema pageSize = .ok f) : f.schema = schema := by
  rw [openNamed] at h
  rcases hpath : d.resolve name with e | path
  · simp [hpath, bind, Except.bind] at h
  · rcases hlayout : layoutFor schema pageSize with e | layout
    · simp [hpath, hlayout, bind, Except.bind] at h
    · simp only [hpath, hlayout, bind, Except.bind, pure, Except.pure, Except.ok.injEq] at h
      rw [← h]

/-- The number of pages in the file. -/
def pageCount (f : HeapFile) (d : Disk) : Except Error Nat := do
  f.layout.pageCount (← d.lengthOf f.path)

/-- Reads a page of the table. -/
def readPage (f : HeapFile) (d : Disk) (page : PageId) : Except Error Page := do
  if page.table ≠ f.id then throw (.pageNotFound page)
  if (← f.pageCount d) ≤ page.number.toNat then throw (.pageNotFound page)
  let data ← d.read f.path (f.layout.pageOffset page.number.toNat) f.layout.stride
  Page.decode page f.schema f.layout data

/-- All rows of the table, in the order of pages and slots. -/
def contents (f : HeapFile) (d : Disk) : Except Error (List Row) := do
  let count ← f.pageCount d
  let pages ← (List.range count).mapM fun n => f.readPage d ⟨f.id, UInt32.ofNat n⟩
  return pages.flatMap Page.rows

/-- Rows are not inserted into a heap file. -/
def insertRefusal (f : HeapFile) : Error :=
  .unsupported ("insert into heap file " ++ f.path)

/-- Rows are not deleted from a heap file. -/
def deleteRefusal (f : HeapFile) : Error :=
  .unsupported ("delete from heap file " ++ f.path)

/-- Pages are not written back to a heap file. -/
def writeRefusal (f : HeapFile) (page : PageId) : Error :=
  .unsupported ("write of page " ++ page.text ++ " to heap file " ++ f.path)

end HeapFile

end RowStore
