import RowStore.Data.Bytes
import RowStore.Page.Basic
import RowStore.Value.Codec

/-!
# The stored form of a page

A page is stored as its bitmap, then one image of `layout.rowSize` bytes per slot, then the unused
rest of the payload.  Free slots and the rest are written as zeros.  Slot `i` is bit `i % 32` of
word `i / 32`, and words are written most significant byte first.

Decoding takes any bytes: what is missing at the end counts as zeros and what is too much is not
looked at.  The one thing that can go wrong is an occupied slot that is too small for the columns
of the schema.

Pages of any size are decoded and encoded here.  What a machine does with a page that it cannot hold
is said by `Page.decodeBounded` and `Page.encodeBounded`, which are these up to that size.
-/

namespace RowStore.Page

/-! ## Decoding -/

/-- The bitmap of a page image. -/
def decodeBitmap (layout : PageLayout) (image : Bytes) : Array UInt32 :=
  ((Bytes.pieces PageLayout.wordBytes layout.headerWords image).map Word.read).toArray

/-- The row in a slot image. -/
def decodeRow (p : Page) (slot : Nat) (image : Bytes) : Except Error Row :=
  match Value.readRow p.schema.shape p.layout.rowSize image with
  | .ok values => .ok ⟨p.schema, values.map some, some (p.recordIdOf slot)⟩
  | .error e => .error (.pageCorrupted p.id ("slot " ++ toString slot ++ ": " ++ e.message))

/-- The entry of a slot, whose image only matters if the slot is occupied. -/
def decodeEntry (p : Page) (image : Bytes) (slot : Nat) : Except Error (Option Row) :=
  if p.isUsed slot then (p.decodeRow slot image).map some else .ok none

/-- The page in a byte sequence, however large it is. -/
def decode (id : PageId) (schema : Schema) (layout : PageLayout) (data : Bytes) :
    Except Error Page := do
  let marked := { empty id schema layout with bitmap := decodeBitmap layout data }
  let images := Bytes.pieces layout.rowSize layout.slots (data.drop layout.headerBytes)
  let entries ← images.zipIdx.mapM fun (image, slot) => marked.decodeEntry image slot
  return { marked with entries := entries }

/-! ## Encoding -/

/-- The image of fields under the given types. -/
def encodeFields : List ColumnType → List (Option Value) → Except Error Bytes
  | ty :: types, field :: fields => do
    match field with
    | none => .error ty.unsetError
    | some v =>
      let first ← v.write ty
      let rest ← encodeFields types fields
      return first ++ rest
  | _, _ => .ok []

/-- The image of a slot. -/
def encodeEntry (p : Page) : Option Row → Except Error Bytes
  | some r => encodeFields p.schema.shape r.fields
  | none => .ok (List.replicate p.layout.rowSize 0)

/-- The byte sequence of a page, however long it is. -/
def encode (p : Page) : Except Error Bytes := do
  let rows ← p.entries.mapM p.encodeEntry
  let unused := p.layout.pageSize - p.layout.slots * p.layout.rowSize
  return p.bitmap.toList.flatMap Word.bytes ++ rows.flatten ++ List.replicate unused 0

end RowStore.Page
