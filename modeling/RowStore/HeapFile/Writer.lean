import RowStore.HeapFile.Basic

/-!
# Writing a heap file

A writer creates the file of a table and fills it with rows.  Rows go to the current page in the
order in which they come.  A page is written out when a row comes for which it has no slot, when it
is finished explicitly, or at the end if it holds a row; so the last page of a file is only empty if
it was finished explicitly.

A row that cannot be stored is refused, and the writer goes on.  If the page was full, it is
written out before the row is looked at.

Pages can have any size here, and there can be any number of them.  `Writer.appendBounded` and
`Writer.finishBounded` also check that a page can be held and its number told apart from others.
-/

namespace RowStore

/-- A heap file in the making: the bytes of the pages written out, and the current page. -/
structure Writer where
  path : String
  table : TableId
  schema : Schema
  layout : PageLayout
  page : Page
  pagesWritten : Nat
  rowsWritten : Nat
  output : Bytes

namespace Writer

/-- The empty page with a given number. -/
def freshPage (table : TableId) (schema : Schema) (layout : PageLayout) (number : Nat) : Page :=
  Page.empty ⟨table, UInt32.ofNat number⟩ schema layout

/-- Creates a named file, or empties it, and begins to write. -/
def create (d : Disk) (name : String) (schema : Schema) (pageSize : Nat) :
    Except Error (Writer × Disk) := do
  let layout ← HeapFile.layoutFor schema pageSize
  let path ← d.locate name
  let table := TableId.ofPath path
  let writer : Writer := {
    path := path
    table := table
    schema := schema
    layout := layout.val
    page := freshPage table schema layout.val 0
    pagesWritten := 0
    rowsWritten := 0
    output := [] }
  return (writer, d.put path ∅)

/-- The disk once all that was written out has reached it. -/
def flush (w : Writer) (d : Disk) : Disk := d.put w.path (.ofList w.output)

/-- Writes the current page out, however large it is, with or without rows, and begins the next. -/
def finishPage (w : Writer) : Except Error Unit × Writer :=
  match w.page.encode with
  | .error e => (.error e, w)
  | .ok bytes =>
    (.ok (),
      { w with
        output := w.output ++ bytes
        pagesWritten := w.pagesWritten + 1
        page := freshPage w.table w.schema w.layout (w.pagesWritten + 1) })

/-- Stores a row on the current page. -/
def store (w : Writer) (r : Row) : Except Error Unit × Writer :=
  match w.page.insert r with
  | .error e => (.error e, w)
  | .ok (_, page) => (.ok (), { w with page := page, rowsWritten := w.rowsWritten + 1 })

/-- Adds a row, on a new page if the current one is full. -/
def append (w : Writer) (r : Row) : Except Error Unit × Writer :=
  if w.page.freeCount = 0 then
    match w.finishPage with
    | (.error e, w) => (.error e, w)
    | (.ok (), w) => w.store r
  else w.store r

/-- Adds rows up to the first that is refused. -/
def appendAll : Writer → List Row → Except Error Unit × Writer
  | w, [] => (.ok (), w)
  | w, r :: rows =>
    match w.append r with
    | (.error e, w) => (.error e, w)
    | (.ok (), w) => appendAll w rows

/-- Writes out the last page if it holds a row, and gives the number of pages. -/
def finish (w : Writer) : Except Error Nat × Writer :=
  if 0 < w.page.rowCount then
    match w.finishPage with
    | (.error e, w) => (.error e, w)
    | (.ok (), w) => (.ok w.pagesWritten, w)
  else (.ok w.pagesWritten, w)

/-- Writes rows to a new file.  If one is refused, the file keeps the pages written out before. -/
def writeRows (d : Disk) (name : String) (schema : Schema) (pageSize : Nat) (rows : List Row) :
    Except Error Nat × Disk :=
  match create d name schema pageSize with
  | .error e => (.error e, d)
  | .ok (w, d) =>
    match w.appendAll rows with
    | (.error e, w) => (.error e, w.flush d)
    | (.ok (), w) =>
      let (answer, w) := w.finish
      (answer, w.flush d)

end Writer

end RowStore
