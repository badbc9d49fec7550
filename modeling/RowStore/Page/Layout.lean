import RowStore.Error

/-!
# The geometry of a page

A page begins with a bitmap, one bit per slot in whole words of four bytes, and goes on with a
payload of a fixed number of bytes that is divided into slots of the size of a row.  What does not
fill a slot stays unused.

```
| bitmap: headerBytes | slot 0 | slot 1 | … | unused |
                      |<-------- pageSize ---------->|
|<---------------------- stride -------------------->|
```

Everything follows from the payload capacity and the size of a row.  A layout is usable if a page
holds at least one slot and no more than a record id can tell apart (`PageLayout.validate`).
-/

namespace RowStore

/-- The payload capacity of a page and the size of a row, which is at least one byte. -/
structure PageLayout where
  pageSize : Nat
  rowSize : Nat
  rowSize_pos : 0 < rowSize
  deriving DecidableEq, Repr

namespace PageLayout

/-- The number of slots that one word of the bitmap accounts for. -/
def wordBits : Nat := 32

/-- The bytes of a word of the bitmap. -/
def wordBytes : Nat := 4

/-- The number of slots that a record id can tell apart. -/
def maxSlots : Nat := 65536

/-- The number of pages that a page id can tell apart. -/
def maxPages : Nat := 4294967295

/-- The layout for given sizes. -/
def ofSizes (pageSize rowSize : Nat) : Except Failure PageLayout :=
  if h : 0 < rowSize then .ok ⟨pageSize, rowSize, h⟩ else .error (.violation .emptyRow)

/-- The number of slots on a page. -/
def slots (l : PageLayout) : Nat := l.pageSize / l.rowSize

/-- The number of words in the bitmap: the least that has a bit for every slot. -/
def headerWords (l : PageLayout) : Nat := (l.slots + (wordBits - 1)) / wordBits

/-- The number of bytes in the bitmap. -/
def headerBytes (l : PageLayout) : Nat := l.headerWords * wordBytes

/-- The number of bytes that a page occupies in its file. -/
def stride (l : PageLayout) : Nat := l.headerBytes + l.pageSize

/-- Where the row of a slot begins within the page. -/
def slotOffset (l : PageLayout) (slot : Nat) : Nat := l.headerBytes + slot * l.rowSize

/-- Where a page begins within its file. -/
def pageOffset (l : PageLayout) (number : Nat) : Nat := number * l.stride

/-- Accepts a layout with at least one slot and at most `maxSlots`. -/
def validate (l : PageLayout) : Except Error PageLayout :=
  if l.slots = 0 then
    .error (.invalidParameter "page_size"
      (toString l.pageSize ++ " (tuples are " ++ toString l.rowSize ++ " bytes)"))
  else if maxSlots < l.slots then
    .error (.invalidParameter "page_size"
      (toString l.pageSize ++ " (" ++ toString l.slots ++ " slots per page, at most "
        ++ toString maxSlots ++ ")"))
  else .ok l

/-- A layout that `validate` accepts. -/
def Valid (l : PageLayout) : Prop := 0 < l.slots ∧ l.slots ≤ maxSlots

instance (l : PageLayout) : Decidable l.Valid := inferInstanceAs (Decidable (_ ∧ _))

/-- The number of pages in a file of the given length.  A last page that is cut short counts, and
page numbers have to reach all of them. -/
def pageCount (l : PageLayout) (fileLength : Nat) : Except Error Nat :=
  let pages := (fileLength + (l.stride - 1)) / l.stride
  if pages ≤ maxPages then .ok pages
  else .error (.invalidParameter "file_len"
    (toString fileLength ++ " (" ++ toString pages ++ " pages exceed the page number range)"))

/-- The number of pages under any layout; without bytes in a page there is no answer. -/
def pageCountOf (l : PageLayout) (fileLength : Nat) : Except Failure Nat :=
  if l.stride = 0 then .error (.violation .emptyPage) else liftError (l.pageCount fileLength)

theorem validate_eq_ok_iff (l m : PageLayout) : l.validate = .ok m ↔ l.Valid ∧ l = m := by
  unfold validate Valid
  by_cases h0 : l.slots = 0
  · simp [h0]
  · by_cases h1 : maxSlots < l.slots
    · simp only [h0, h1, if_true, if_false]
      constructor
      · intro h; cases h
      · rintro ⟨⟨_, h⟩, _⟩; omega
    · simp only [h0, h1, if_false, Except.ok.injEq]
      constructor
      · intro h; exact ⟨⟨by omega, by omega⟩, h⟩
      · exact fun h => h.2

/-- The pages of a usable layout are not empty. -/
theorem stride_pos {l : PageLayout} (h : l.Valid) : 0 < l.stride := by
  have hs := h.1
  have : 0 < l.pageSize := by
    rcases Nat.eq_zero_or_pos l.pageSize with h0 | h0
    · simp [slots, h0] at hs
    · exact h0
  unfold stride
  omega

/-- A page is no smaller than one of its rows. -/
theorem rowSize_le_stride {l : PageLayout} (h : 0 < l.slots) : l.rowSize ≤ l.stride :=
  calc l.rowSize ≤ l.slots * l.rowSize := Nat.le_mul_of_pos_left _ h
    _ ≤ l.pageSize := Nat.div_mul_le_self _ _
    _ ≤ l.stride := Nat.le_add_left _ _

end PageLayout

end RowStore
