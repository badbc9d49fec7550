import RowStore.Page.Layout
import RowStore.Row

/-!
# Pages

A page holds rows in numbered slots.  Beside the slots it keeps the bitmap of its stored form, in
which the bit of every occupied slot is set; a bitmap that was read may have further bits set past
the last slot, and these are kept as they are.

A row is stored in the lowest free slot, provided that its schema has the shape of the page's, that
every field is set and that every value fits its column.  A stored row knows its record id.
-/

namespace RowStore

/-! ## Bits of a word -/

namespace Word

/-- Whether the bit at a position is set. -/
def bit (w : UInt32) (k : Nat) : Bool := w.toBitVec.getLsbD k

/-- Sets or clears the bit at a position. -/
def withBit (w : UInt32) (k : Nat) (on : Bool) : UInt32 :=
  if on then ⟨w.toBitVec ||| BitVec.twoPow 32 k⟩ else ⟨w.toBitVec &&& ~~~BitVec.twoPow 32 k⟩

theorem bit_withBit (w : UInt32) (j k : Nat) (on : Bool) (hk : k < 32) :
    bit (withBit w k on) j = if j = k then on else bit w j := by
  by_cases h : j = k
  · subst h
    cases on <;> simp [bit, withBit, hk]
  · have hkj : ¬ k = j := fun e => h e.symm
    by_cases hj : j < 32
    · cases on <;> simp [bit, withBit, h, hj]
    · have hge : 32 ≤ j := by omega
      simp [bit, h, BitVec.getLsbD_of_ge _ _ hge]

end Word

/-! ## Pages and their slots -/

/-- The decoded form of a page: the bitmap, and one entry per slot. -/
structure Page where
  id : PageId
  schema : Schema
  layout : PageLayout
  bitmap : Array UInt32
  entries : List (Option Row)
  deriving DecidableEq

namespace Page

/-- The page whose slots are all free. -/
def empty (id : PageId) (schema : Schema) (layout : PageLayout) : Page where
  id := id
  schema := schema
  layout := layout
  bitmap := Array.replicate layout.headerWords 0
  entries := List.replicate layout.slots none

/-- Whether a slot is marked as occupied. -/
def isUsed (p : Page) (slot : Nat) : Bool :=
  slot < p.layout.slots &&
    Word.bit (p.bitmap[slot / PageLayout.wordBits]?.getD 0) (slot % PageLayout.wordBits)

/-- The number of stored rows. -/
def rowCount (p : Page) : Nat := p.entries.countP Option.isSome

/-- The number of slots without a row. -/
def freeCount (p : Page) : Nat := p.layout.slots - p.rowCount

/-- The row in a slot. -/
def row? (p : Page) (slot : Nat) : Option Row := (p.entries[slot]?).join

/-- The stored rows, in the order of their slots. -/
def rows (p : Page) : List Row := p.entries.filterMap fun entry => entry

/-- The record id of a slot. -/
def recordIdOf (p : Page) (slot : Nat) : RecordId := ⟨p.id, UInt16.ofNat slot⟩

/-! ## Storing and deleting -/

/-- Marks a slot and puts an entry in. -/
def setSlot (p : Page) (slot : Nat) (entry : Option Row) : Page :=
  { p with
    bitmap := p.bitmap.modify (slot / PageLayout.wordBits) fun w =>
      Word.withBit w (slot % PageLayout.wordBits) entry.isSome
    entries := p.entries.set slot entry }

/-- Accepts fields that are all set to values of their columns. -/
def checkFields : List ColumnType → List (Option Value) → Except Error Unit
  | ty :: types, field :: fields =>
    match field with
    | none => .error ty.unsetError
    | some v =>
      if v.fits ty then checkFields types fields else .error (.typeMismatch ty.name v.kind)
  | _, _ => .ok ()

/-- Accepts a row that can be stored on the page. -/
def check (p : Page) (r : Row) : Except Error Unit :=
  if r.schema.shape = p.schema.shape then checkFields p.schema.shape r.fields
  else .error (.typeMismatch p.schema.text r.schema.text)

/-- The lowest slot that is not occupied. -/
def freeSlot? (p : Page) : Option Nat :=
  (List.range p.layout.slots).find? fun slot => !p.isUsed slot

/-- Stores a row in the lowest free slot. -/
def insert (p : Page) (r : Row) : Except Error (RecordId × Page) := do
  p.check r
  match p.freeSlot? with
  | none => .error (.pageFull p.id)
  | some slot =>
    let id := p.recordIdOf slot
    return (id, p.setSlot slot (some { r with recordId := some id }))

/-- Frees the slot of a record. -/
def delete (p : Page) (id : RecordId) : Except Error Page :=
  let slot := id.slot.toNat
  if id.page = p.id ∧ p.isUsed slot then .ok (p.setSlot slot none)
  else .error (.recordNotFound id)

end Page

end RowStore
