import RowStore.Proofs.Page.Codec

/-!
# Images of pages

The image of a page is what is left of some bytes when they are cut or filled up with zeros to the
size of a page (`Bytes.fit`).  In an image, every slot has a bit (`Page.imageBit`) and some bytes
(`Page.slotImage`), and both are within it (`Page.slot_within`).  To read bytes as a page is to ask
their image slot by slot what it holds (`Page.decode_eq`), so there is a page if every slot of the
image can be read (`Page.exists_decode_of_entries`).
-/

namespace RowStore

namespace Bytes

/-- A part of a byte sequence that has been given a length is the part of the sequence, filled up
with zeros. -/
lemma take_drop_fit {length start size : ℕ} (h : start + size ≤ length) (bs : Bytes) :
    ((fit length bs).drop start).take size = fit size (bs.drop start) := by
  apply List.ext_getElem?
  intro i
  simp only [fit_eq, List.getElem?_take, List.getElem?_drop, List.getElem?_append,
    List.length_take, List.length_drop, List.getElem?_replicate]
  by_cases hi : i < size
  · have hlength : start + i < length := by omega
    by_cases hbs : start + i < bs.length
    · have h₁ : start + i < min length bs.length := by omega
      have h₂ : i < min size (bs.length - start) := by omega
      rw [if_pos hi, if_pos h₁, if_pos hlength, if_pos h₂, if_pos hi]
    · have h₁ : ¬ start + i < min length bs.length := by omega
      have h₂ : ¬ i < min size (bs.length - start) := by omega
      rw [if_pos hi, if_neg h₁, if_neg h₂, if_pos (by omega), if_pos (by omega)]
  · have h₂ : ¬ i < min size (bs.length - start) := by omega
    rw [if_neg hi, if_neg h₂, if_neg (by omega)]

end Bytes

/-- A word that lies within the given length is the word at that place of the sequence. -/
lemma Word.read_drop_fit {length start : ℕ} (h : start + 4 ≤ length) (bs : Bytes) :
    Word.read ((Bytes.fit length bs).drop start) = Word.read (bs.drop start) := by
  rw [← Word.read_take, Bytes.take_drop_fit h, Bytes.fit, Word.read_append_zeros, Word.read_take]

namespace Page

variable {id : PageId} {schema : Schema} {layout : PageLayout} {data : Bytes} {slot : ℕ}

/-! ## Where the slots are -/

/-- The bit of a slot in an image: bit `i % 32` of word `i / 32`. -/
def imageBit (image : Bytes) (slot : ℕ) : Bool :=
  Word.bit (Word.read (image.drop (4 * (slot / 32)))) (slot % 32)

/-- The bytes of a slot in an image. -/
def slotImage (layout : PageLayout) (image : Bytes) (slot : ℕ) : Bytes :=
  (image.drop (layout.slotOffset slot)).take layout.rowSize

lemma slotOffset_add_rowSize_le (hslot : slot < layout.slots) :
    layout.slotOffset slot + layout.rowSize ≤ layout.stride := by
  have hrows : (slot + 1) * layout.rowSize ≤ layout.slots * layout.rowSize :=
    Nat.mul_le_mul_right _ hslot
  have hfill : layout.slots * layout.rowSize ≤ layout.pageSize :=
    Nat.div_mul_le_self layout.pageSize layout.rowSize
  rw [Nat.succ_mul] at hrows
  rw [PageLayout.slotOffset, PageLayout.stride]
  omega

/-- The words of the slots are in front of all slots, and these are within the page. -/
lemma slot_within (hslot : slot < layout.slots) :
    4 * (slot / 32) + 4 ≤ layout.headerBytes ∧ layout.headerBytes ≤ layout.slotOffset slot ∧
      layout.slotOffset slot + layout.rowSize ≤ layout.stride := by
  have hword := PageLayout.div_lt_headerWords hslot
  rw [PageLayout.wordBits] at hword
  refine ⟨?_, Nat.le_add_right _ _, slotOffset_add_rowSize_le hslot⟩
  rw [PageLayout.headerBytes, PageLayout.wordBytes]
  omega

lemma length_slotImage {image : Bytes} (hlength : image.length = layout.stride)
    (hslot : slot < layout.slots) : (slotImage layout image slot).length = layout.rowSize := by
  have hstride := slotOffset_add_rowSize_le hslot
  rw [slotImage, List.length_take, List.length_drop, hlength]
  omega

/-! ## What the slots hold -/

/-- Bits are read from any bytes as from their image. -/
lemma isUsed_marked (hslot : slot < layout.slots) :
    (marked id schema layout (decodeBitmap layout data)).isUsed slot =
      imageBit (Bytes.fit layout.stride data) slot := by
  obtain ⟨hbits, hheader, hrow⟩ := slot_within hslot
  have hroom : 4 * (slot / 32) + 4 ≤ layout.stride := by omega
  have hget : (decodeBitmap layout data)[slot / PageLayout.wordBits]? =
      some (Word.read (data.drop (4 * (slot / 32)))) :=
    getElem?_decodeBitmap layout data (PageLayout.div_lt_headerWords hslot)
  have hlt : decide (slot < (marked id schema layout (decodeBitmap layout data)).layout.slots) =
      true := decide_eq_true hslot
  rw [isUsed_eq_bitAt, hlt, Bool.true_and, bitAt, hget, Option.getD_some, imageBit,
    Word.read_drop_fit hroom]
  rfl

/-- What an image holds in a slot. -/
def slotEntry (id : PageId) (schema : Schema) (layout : PageLayout) (image : Bytes) (slot : ℕ) :
    Except Error (Option Row) :=
  if imageBit image slot then
    ((empty id schema layout).decodeRow slot (slotImage layout image slot)).map some
  else .ok none

lemma slotEntry_of_free {image : Bytes} (h : imageBit image slot = false) :
    slotEntry id schema layout image slot = .ok none := by
  rw [slotEntry, h, if_neg Bool.false_ne_true]

lemma slotEntry_of_used {image : Bytes} {values : List Value} (h : imageBit image slot = true)
    (hread : Value.readRow schema.shape layout.rowSize (slotImage layout image slot) =
      .ok values) : slotEntry id schema layout image slot = .ok (some
        ⟨schema, values.map some, some ((empty id schema layout).recordIdOf slot)⟩) := by
  have hrow : (empty id schema layout).decodeRow slot (slotImage layout image slot) =
      .ok ⟨schema, values.map some, some ((empty id schema layout).recordIdOf slot)⟩ :=
    decodeRow_eq_ok hread
  rw [slotEntry, if_pos h, hrow, Except.map]

lemma decodeEntry_eq_slotEntry (hslot : slot < layout.slots) :
    (marked id schema layout (decodeBitmap layout data)).decodeEntry
        ((data.drop (layout.slotOffset slot)).take layout.rowSize) slot =
      slotEntry id schema layout (Bytes.fit layout.stride data) slot := by
  -- It makes no difference whether zeros at the end of a slot are there or missing.
  have hrow : (marked id schema layout (decodeBitmap layout data)).decodeRow slot
      ((data.drop (layout.slotOffset slot)).take layout.rowSize) =
        (empty id schema layout).decodeRow slot
          (slotImage layout (Bytes.fit layout.stride data) slot) := by
    rw [slotImage, Bytes.take_drop_fit (slotOffset_add_rowSize_le hslot), Bytes.fit, decodeRow,
      decodeRow, Value.readRow_append_zeros]
    rfl
  rw [decodeEntry, slotEntry, isUsed_marked hslot, hrow]

/-- To read bytes as a page is to ask their image what every slot holds. -/
lemma decode_eq (id : PageId) (schema : Schema) (layout : PageLayout) (data : Bytes) :
    decode id schema layout data =
      ((List.range layout.slots).mapM
        (slotEntry id schema layout (Bytes.fit layout.stride data))).map fun entries =>
          { marked id schema layout (decodeBitmap layout data) with entries := entries } := by
  have hpieces : (Bytes.pieces layout.rowSize layout.slots
      (data.drop layout.headerBytes)).zipIdx = (List.range layout.slots).map fun slot =>
        ((data.drop (layout.slotOffset slot)).take layout.rowSize, slot) := by
    refine List.ext_getElem (by simp [Bytes.length_pieces]) fun slot h h' => ?_
    have hslot : slot < layout.slots := by simpa using h'
    have hget : (Bytes.pieces layout.rowSize layout.slots (data.drop layout.headerBytes))[slot]? =
        _ := Bytes.getElem?_pieces hslot _
    rw [List.drop_drop] at hget
    rw [List.getElem_zipIdx, List.getElem_map, List.getElem_range, Nat.zero_add,
      (List.getElem?_eq_some_iff.1 hget).2]
    rfl
  have hentries : ((List.range layout.slots).map fun slot =>
      ((data.drop (layout.slotOffset slot)).take layout.rowSize, slot)).mapM
        (fun x => (marked id schema layout (decodeBitmap layout data)).decodeEntry x.1 x.2) =
      (List.range layout.slots).mapM
        (slotEntry id schema layout (Bytes.fit layout.stride data)) := by
    rw [List.mapM_map]
    exact mapM_congr_of_mem fun slot hslot => decodeEntry_eq_slotEntry (List.mem_range.1 hslot)
  rw [decode]
  simp only [hpieces, hentries]
  rcases (List.range layout.slots).mapM
    (slotEntry id schema layout (Bytes.fit layout.stride data)) with e | entries <;> rfl

/-- If every slot can be read, there is a page of what they hold. -/
lemma exists_decode_of_entries (id : PageId) {P : ℕ → Option Row → Prop}
    (h : ∀ slot < layout.slots, ∃ entry,
      slotEntry id schema layout (Bytes.fit layout.stride data) slot = .ok entry ∧ P slot entry) :
    ∃ entries, decode id schema layout data =
        .ok { marked id schema layout (decodeBitmap layout data) with entries := entries } ∧
      entries.length = layout.slots ∧ ∀ (slot : ℕ) (hslot : slot < entries.length),
        P slot entries[slot] := by
  obtain ⟨entries, hentries, hP⟩ := exists_mapM_eq_ok (l := List.range layout.slots)
    (f := slotEntry id schema layout (Bytes.fit layout.stride data)) (P := P) fun slot hslot => by
    rw [List.getElem_range]
    exact h slot (by simpa using hslot)
  refine ⟨entries, ?_, ?_, hP⟩
  · rw [decode_eq, hentries]
    rfl
  · rw [length_of_mapM_eq_ok hentries, List.length_range]

lemma size_decodeBitmap (layout : PageLayout) (data : Bytes) :
    (decodeBitmap layout data).size = layout.headerWords := by
  rw [decodeBitmap, List.size_toArray, List.length_map, Bytes.length_pieces]

end Page

end RowStore
