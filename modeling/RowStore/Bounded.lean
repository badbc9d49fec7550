import RowStore.Database
import RowStore.HeapFile.Writer
import RowStore.Pool.Session
import RowStore.Size

/-!
# Operations within the bounds of a machine

Some operations hold as many bytes in one piece as a size says that the caller chooses: the width
of a column, the stride of a page, the number of frames in a pool.  Here they are again with the
sizes checked in front.  A size counts against the bounds of `Size` when the operation comes to
need it, so an error that is found earlier is still reported, and a page that is too large to be
written out can be filled.  A writer also counts the pages, and their numbers come to an end.

Where the checks succeed, the operation is the one without them; so what is proved of the unchecked
operations holds of these within the bounds.
-/

namespace RowStore

/-! ## Values -/

namespace Value

/-- Writes a value behind a buffer, unless the buffer cannot hold its bytes too. -/
def appendBounded (v : Value) (ty : ColumnType) (buffer : Bytes) : Except Failure Bytes := do
  if v.fits ty then
    let _ ← Size.checkBuffer (buffer.length + ty.width)
  return buffer ++ (← liftError (v.write ty))

/-- Writes a value, unless the column is too wide to be held. -/
def writeBounded (v : Value) (ty : ColumnType) : Except Failure Bytes := v.appendBounded ty []

/-- Writes values one by one behind a buffer, each as its type says.  A value that is refused leaves
nothing behind, and is told of. -/
def writeEachBounded : List (Value × ColumnType) → Bytes →
    Except Failure (List (Except Error Unit) × Bytes)
  | [], buffer => .ok ([], buffer)
  | (v, ty) :: fields, buffer =>
    match v.appendBounded ty buffer with
    | .error (.violation promise) => .error (.violation promise)
    | .error (.error e) => do
      let (answers, buffer) ← writeEachBounded fields buffer
      return (.error e :: answers, buffer)
    | .ok buffer => do
      let (answers, buffer) ← writeEachBounded fields buffer
      return (.ok () :: answers, buffer)

/-- Reads one value per type from one run of bytes; all widths have to be countable. -/
def readEachBounded (types : List ColumnType) (bs : Bytes) :
    Except Failure (List (Except Error Value) × Bytes) := do
  types.forM fun ty => do
    let _ ← Size.check ty.width
  return readEach types bs

/-- Accepts the widths that are asked for when a row is read from an image of `room` bytes. -/
def checkRow : List ColumnType → Nat → Except Failure Unit
  | [], _ => .ok ()
  | ty :: types, room => do
    let width ← Size.check ty.width
    if width ≤ room then checkRow types (room - width) else .ok ()

/-- Where there is room for the columns, their widths can be counted. -/
theorem checkRow_of_le : ∀ (types : List ColumnType) {room : Nat},
    ColumnType.totalWidth types ≤ Size.limit → checkRow types room = .ok ()
  | [], _, _ => rfl
  | ty :: types, room, h => by
    have hw : ty.width + ColumnType.totalWidth types ≤ Size.limit := h
    have hs : Size.check ty.width = .ok ty.width :=
      Size.within_of_le (Nat.le_trans (Nat.le_add_right _ _) hw)
    have hr : checkRow types (room - ty.width) = .ok () :=
      checkRow_of_le types (Nat.le_trans (Nat.le_add_left _ _) hw)
    rw [checkRow, hs]
    change (if ty.width ≤ room then checkRow types (room - ty.width) else .ok ()) = .ok ()
    rw [hr, ite_self]

end Value

/-! ## Pages -/

/-- The bytes that a page in memory keeps for every slot, whether it is in use or not. -/
def Page.entryBytes : Nat := 64

/-- Pages can be held, their bytes as well as the entries of their slots. -/
def PageLayout.Held (l : PageLayout) : Prop :=
  l.stride ≤ Size.bufferLimit ∧ l.slots * Page.entryBytes ≤ Size.bufferLimit

instance (l : PageLayout) : Decidable l.Held := inferInstanceAs (Decidable (_ ∧ _))

/-- A usable layout has so few slots that only the bytes of a page matter. -/
theorem PageLayout.Valid.held_iff {l : PageLayout} (h : l.Valid) :
    l.Held ↔ l.stride ≤ Size.bufferLimit := by
  refine ⟨fun hheld => hheld.1, fun hstride => ⟨hstride, ?_⟩⟩
  calc l.slots * Page.entryBytes ≤ maxSlots * Page.entryBytes := Nat.mul_le_mul_right _ h.2
    _ ≤ Size.bufferLimit := by decide

namespace Page

/-- Decodes a page, unless its bytes or the entries of its slots are too many to be held. -/
def decodeBounded (id : PageId) (schema : Schema) (layout : PageLayout) (data : Bytes) :
    Except Failure Page := do
  let _ ← Size.checkBuffer layout.stride
  let _ ← Size.checkBuffer (layout.slots * entryBytes)
  let marked := { empty id schema layout with bitmap := decodeBitmap layout data }
  if (List.range layout.slots).any marked.isUsed then
    Value.checkRow schema.shape layout.rowSize
  decode id schema layout data

/-- Encodes a page, unless it is too large to be held. -/
def encodeBounded (p : Page) : Except Failure Bytes := do
  let _ ← Size.checkBuffer p.layout.stride
  if 0 < p.rowCount then
    let _ ← Size.checkBuffer p.schema.byteSize
  p.encode

theorem decodeBounded_of_held (id : PageId) {schema : Schema} {layout : PageLayout} (data : Bytes)
    (hheld : layout.Held) (hr : schema.byteSize ≤ Size.limit) :
    decodeBounded id schema layout data = liftError (decode id schema layout data) := by
  unfold decodeBounded
  rw [Size.checkBuffer, Size.checkBuffer, Size.within_of_le hheld.1, Size.within_of_le hheld.2,
    Value.checkRow_of_le schema.shape hr]
  dsimp only
  split <;> rfl

/-- Nothing is decoded under a layout whose pages cannot be held. -/
theorem decodeBounded_of_not_held {layout : PageLayout} (hheld : ¬ layout.Held) :
    ∃ size, ∀ id schema data,
      decodeBounded id schema layout data = .error (.violation (.sizeOutOfRange size)) := by
  by_cases hstride : layout.stride ≤ Size.bufferLimit
  · have hslots : ¬ layout.slots * entryBytes ≤ Size.bufferLimit := fun h => hheld ⟨hstride, h⟩
    refine ⟨layout.slots * entryBytes, fun id schema data => ?_⟩
    rw [decodeBounded, Size.checkBuffer, Size.checkBuffer, Size.within_of_le hstride, Size.within,
      if_neg hslots]
    rfl
  · refine ⟨layout.stride, fun id schema data => ?_⟩
    rw [decodeBounded, Size.checkBuffer, Size.within, if_neg hstride]
    rfl

theorem encodeBounded_of_le {p : Page} (hs : p.layout.stride ≤ Size.bufferLimit)
    (hr : p.schema.byteSize ≤ Size.bufferLimit) :
    p.encodeBounded = liftError p.encode := by
  unfold encodeBounded
  rw [Size.checkBuffer, Size.checkBuffer, Size.within_of_le hs, Size.within_of_le hr]
  by_cases h : 0 < p.rowCount <;> simp only [h] <;> rfl

/-- Under a usable layout with slots of the size of a row, only the bytes of a page matter. -/
theorem decodeBounded_of_stride (id : PageId) {schema : Schema} {layout : PageLayout}
    (data : Bytes) (hvalid : layout.Valid) (hsize : layout.rowSize = schema.byteSize)
    (hstride : layout.stride ≤ Size.bufferLimit) :
    decodeBounded id schema layout data = liftError (decode id schema layout data) := by
  refine decodeBounded_of_held id data (hvalid.held_iff.2 hstride) ?_
  calc schema.byteSize ≤ layout.stride := hsize ▸ PageLayout.rowSize_le_stride hvalid.1
    _ ≤ Size.bufferLimit := hstride
    _ ≤ Size.limit := by decide

theorem encodeBounded_of_stride {p : Page} (hvalid : p.layout.Valid)
    (hsize : p.layout.rowSize = p.schema.byteSize) (hstride : p.layout.stride ≤ Size.bufferLimit) :
    p.encodeBounded = liftError p.encode := by
  refine encodeBounded_of_le hstride (Nat.le_trans ?_ hstride)
  exact hsize ▸ PageLayout.rowSize_le_stride hvalid.1

theorem encodeBounded_of_vast {p : Page} (hs : Size.bufferLimit < p.layout.stride) :
    p.encodeBounded = .error (.violation (.sizeOutOfRange p.layout.stride)) := by
  unfold encodeBounded
  rw [Size.checkBuffer, Size.within, if_neg (Nat.not_le.2 hs)]
  rfl

end Page

/-! ## Heap files -/

namespace HeapFile

/-- Opens a file for rows of the given schema, whose size and whose pages can be counted. -/
def openBounded (d : Disk) (name : String) (schema : Schema) (pageSize : Nat) :
    Except Failure HeapFile := do
  let _ ← liftError (d.resolve name)
  let _ ← Size.check schema.byteSize
  let f ← openNamed d name schema pageSize
  let _ ← Size.check f.layout.stride
  return f

/-- Reads a page of the table, unless pages of it are too large to be held. -/
def readPageBounded (f : HeapFile) (d : Disk) (page : PageId) : Except Failure Page := do
  if page.table = f.id then
    let _ ← Size.checkBuffer f.layout.stride
  f.readPage d page

theorem readPageBounded_of_le {f : HeapFile} (hstride : f.layout.stride ≤ Size.bufferLimit)
    (d : Disk) (number : UInt32) :
    f.readPageBounded d ⟨f.id, number⟩ = liftError (f.readPage d ⟨f.id, number⟩) := by
  rw [readPageBounded, if_pos rfl, Size.checkBuffer, Size.within_of_le hstride]
  rfl

theorem readPageBounded_of_vast {f : HeapFile} (hstride : Size.bufferLimit < f.layout.stride)
    (d : Disk) (number : UInt32) : f.readPageBounded d ⟨f.id, number⟩ =
      .error (.violation (.sizeOutOfRange f.layout.stride)) := by
  rw [readPageBounded, if_pos rfl, Size.checkBuffer, Size.within, if_neg (Nat.not_le.2 hstride)]
  rfl

end HeapFile

namespace PageLayout

/-- So many pages can be written out: they have numbers, and if there are any, they can be held. -/
def Admits (l : PageLayout) (count : Nat) : Prop :=
  count ≤ maxPages ∧ (0 < count → l.stride ≤ Size.bufferLimit)

theorem admits_zero (l : PageLayout) : l.Admits 0 :=
  ⟨Nat.zero_le _, fun h => absurd h (Nat.lt_irrefl 0)⟩

theorem Admits.mono {l : PageLayout} {count n : Nat} (h : l.Admits count) (hle : n ≤ count) :
    l.Admits n :=
  ⟨Nat.le_trans hle h.1, fun hpos => h.2 (Nat.lt_of_lt_of_le hpos hle)⟩

end PageLayout

namespace Writer

/-- Creates a file for rows whose size can be counted. -/
def createBounded (d : Disk) (name : String) (schema : Schema) (pageSize : Nat) :
    Except Failure (Writer × Disk) := do
  let _ ← Size.check schema.byteSize
  create d name schema pageSize

/-- Accepts that one more page is written out: it can be held, and pages can still be counted. -/
def checkPage (w : Writer) : Except Failure Unit := do
  let _ ← Size.checkBuffer w.layout.stride
  let _ ← Size.within PageLayout.maxPages (w.pagesWritten + 1)

/-- Writes the current page out, unless that is out of bounds. -/
def finishPageBounded (w : Writer) : Except Failure (Except Error Unit × Writer) := do
  w.checkPage
  return w.finishPage

/-- Adds a row, unless that writes a page out that is out of bounds. -/
def appendBounded (w : Writer) (r : Row) : Except Failure (Except Error Unit × Writer) :=
  match w.checkPage with
  | .ok () => .ok (w.append r)
  | .error e => if w.page.freeCount = 0 then .error e else .ok (w.append r)

/-- Writes out the last page if it holds a row, unless that is out of bounds. -/
def finishBounded (w : Writer) : Except Failure (Except Error Nat × Writer) := do
  if 0 < w.page.rowCount then
    w.checkPage
  return w.finish

/-- Adds rows up to the first that is refused, and finishes if none is. -/
def finishAllBounded : Writer → List Row → Except Failure (Except Error Nat × Writer)
  | w, [] => w.finishBounded
  | w, r :: rows =>
    match w.appendBounded r with
    | .error e => .error e
    | .ok (.error e, w) => .ok (.error e, w)
    | .ok (.ok (), w) => finishAllBounded w rows

/-- Writes rows to a new file, unless that writes a page out that is out of bounds. -/
def writeRowsBounded (d : Disk) (name : String) (schema : Schema) (pageSize : Nat)
    (rows : List Row) : Except Failure (Except Error Nat × Disk) := do
  let _ ← Size.check schema.byteSize
  match create d name schema pageSize with
  | .error e => return (.error e, d)
  | .ok (w, d) =>
    let (answer, w) ← w.finishAllBounded rows
    return (answer, w.flush d)

section

variable {w : Writer}

theorem checkPage_of_admits (h : w.layout.Admits (w.pagesWritten + 1)) : w.checkPage = .ok () := by
  obtain ⟨hcount, hstride⟩ := h
  rw [checkPage, Size.checkBuffer, Size.within_of_le (hstride (Nat.succ_pos _)),
    Size.within_of_le hcount]
  rfl

theorem checkPage_of_not_admits (h : ¬ w.layout.Admits (w.pagesWritten + 1)) :
    ∃ promise, w.checkPage = .error (.violation promise) := by
  by_cases hstride : w.layout.stride ≤ Size.bufferLimit
  · have hcount : ¬ w.pagesWritten + 1 ≤ PageLayout.maxPages := fun hle => h ⟨hle, fun _ => hstride⟩
    refine ⟨.sizeOutOfRange (w.pagesWritten + 1), ?_⟩
    rw [checkPage, Size.checkBuffer, Size.within_of_le hstride, Size.within, if_neg hcount]
    rfl
  · refine ⟨.sizeOutOfRange w.layout.stride, ?_⟩
    rw [checkPage, Size.checkBuffer, Size.within, if_neg hstride]
    rfl

theorem finishPageBounded_eq (w : Writer) :
    w.finishPageBounded = w.checkPage.map fun _ => w.finishPage := by
  rw [finishPageBounded]
  rcases w.checkPage with e | ⟨⟩ <;> rfl

theorem appendBounded_of_free (h : w.page.freeCount ≠ 0) (r : Row) :
    w.appendBounded r = .ok (w.append r) := by
  rw [appendBounded]
  split
  · rfl
  · rw [if_neg h]

theorem appendBounded_of_full (h : w.page.freeCount = 0) (r : Row) :
    w.appendBounded r = w.checkPage.map fun _ => w.append r := by
  rw [appendBounded]
  rcases w.checkPage with e | ⟨⟩
  · exact if_pos h
  · rfl

theorem finishBounded_of_rows (h : 0 < w.page.rowCount) :
    w.finishBounded = w.checkPage.map fun _ => w.finish := by
  rw [finishBounded, if_pos h]
  rcases w.checkPage with e | ⟨⟩ <;> rfl

theorem finishBounded_of_none (h : ¬ 0 < w.page.rowCount) : w.finishBounded = .ok w.finish := by
  rw [finishBounded, if_neg h]
  rfl

end

end Writer

/-! ## Pools and databases -/

/-- The bytes that a pool keeps for every frame. -/
def Frame.recordBytes : Nat := 32

/-- The clock for a number of frames whose marks can be held. -/
def Clock.ofCapacityBounded (capacity : Nat) : Except Failure Clock := do
  return ofCapacity (← Size.checkBuffer capacity)

/-- The desk in front of a new pool whose frames can be held. -/
def Desk.ofFramesBounded {α : Type} (count : Nat) : Except Failure (Desk α) := do
  let _ ← Size.checkBuffer (count * Frame.recordBytes)
  return ofFrames count

namespace Database

/-- The database on a disk, if the configuration is acceptable and the pool can be held. -/
def createBounded (config : Config) (disk : Disk) : Except Failure Database := do
  let config ← config.validate
  let _ ← Size.checkBuffer (config.poolPages * Frame.recordBytes)
  create config disk

/-- Opens a file as a table for rows whose size can be counted, and registers it. -/
def openTableBounded (db : Database) (file : String) (schema : Schema) (name : String) :
    Except Failure (HeapFile × Database) := do
  let _ ← liftError (db.disk.resolve file)
  let _ ← Size.check schema.byteSize
  let (answer, db) := db.openTable file schema name
  return (← liftError answer, db)

/-- Accepts a request for a page that is resident or can be held. -/
def checkRequest (db : Database) (page : PageId) : Except Failure Unit :=
  match db.catalog.heapFile page.table with
  | .error _ => .ok ()
  | .ok f => do
    if !db.pool.contains page then
      let _ ← Size.checkBuffer f.layout.stride

/-- A database that is held to the bounds of a machine.  The first request that is out of bounds is
remembered; what is answered from then on means nothing. -/
structure Checked where
  db : Database
  broken : Option Failure

namespace Checked

/-- A database before any request. -/
def of (db : Database) : Checked := ⟨db, none⟩

instance : Storage Checked where
  heapFile table x := Storage.heapFile table x.db
  pageCount file x := Storage.pageCount file x.db
  request page access x :=
    match x.db.checkRequest page with
    | .error e => (.error .poolFull, { x with broken := x.broken.or (some e) })
    | .ok () =>
      let (answer, db) := Storage.request page access x.db
      (answer, { x with db := db })
  release h x := { x with db := Storage.release h x.db }

/-- Within the bounds a request is one to the database. -/
theorem request_of_ok {x : Checked} {page : PageId} (access : Access)
    (h : x.db.checkRequest page = .ok ()) :
    Storage.request page access x = ((x.db.getPage page).1, ⟨(x.db.getPage page).2, x.broken⟩) := by
  simp only [Storage.request, h]

/-- What a call on a cursor answers, unless a request in it was out of bounds. -/
def verdict {α : Type} (x : Checked) (answer : Except Failure α) : Except Failure α :=
  match x.broken with
  | some e => .error e
  | none => answer

end Checked

end Database

end RowStore
