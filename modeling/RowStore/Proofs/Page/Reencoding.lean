import RowStore.Proofs.Page.Images
import RowStore.Proofs.Page.StoredForm

/-!
# Pages that others have written

Any bytes can be read as a page if the texts in the slots that are in use are well-formed: there may
be too few bytes or too many, bits of no slot may be set, and lengths may be out of range.  The page
that is read from them is one that could have been made by storing rows, apart from the stray bits;
so it can be written again, and reading what was written gives the same page
(`Page.decode_encode_decoded`).  Pages that are larger than a buffer are not read.

The reason is that a value that was read is one that its column keeps as it is
(`ColumnType.Settled`): its text is no longer than the column is wide, and as its length was read
from a signed word, it can be stored in one.
-/

namespace RowStore

/-! ## Values that were read -/

/-- A column keeps a value as it is, and what it stores of it can be read back. -/
structure ColumnType.Settled (ty : ColumnType) (v : Value) : Prop where
  fits : v.fits ty = true
  legible : ty.Legible v
  keep_eq : ty.keep v = v

/-- The bytes that are read as the text of a column of the given capacity that begins here: as many
as the length in front of them says, within the range from zero to the capacity. -/
def Value.payload (capacity : ℕ) (bs : Bytes) : Bytes :=
  (bs.drop ColumnType.lengthWidth).take (min (Word.read bs).toInt32.toInt.toNat capacity)

/-- A column ends where its row does or before. -/
lemma ColumnType.totalWidth_take_add_le {types : List ColumnType} {i : ℕ} {ty : ColumnType}
    (h : types[i]? = some ty) : totalWidth (types.take i) + ty.width ≤ totalWidth types := by
  obtain ⟨hi, rfl⟩ := List.getElem?_eq_some_iff.1 h
  calc totalWidth (types.take i) + types[i].width
      ≤ totalWidth (types.take i) + totalWidth (types.drop i) := by
        rw [List.drop_eq_getElem_cons hi, totalWidth]
        omega
    _ = totalWidth types := by rw [← totalWidth_append, List.take_append_drop]

namespace Value

/-- A text is found in any bytes that reach to the end of its column. -/
lemma payload_take {capacity room : ℕ} (h : (ColumnType.text capacity).width ≤ room) (bs : Bytes) :
    payload capacity (bs.take room) = payload capacity bs := by
  have hwidth : ColumnType.lengthWidth + capacity ≤ room := h
  have hfour : 4 ≤ room := Nat.le_trans (Nat.le_add_right 4 capacity) h
  rw [payload, payload, Word.read_take_of_le hfour, List.drop_take, List.take_take,
    Nat.min_eq_left (by omega)]

lemma settled_readField {ty : ColumnType} {bs : Bytes} (hlength : ty.width ≤ bs.length)
    (htext : ∀ capacity, ty = .text capacity → ∃ s, Utf8.encode s = payload capacity bs) :
    ty.Settled (readField ty bs) := by
  cases ty with
  | int => exact ⟨rfl, fun s hs => (by cases hs), rfl⟩
  | text capacity =>
    obtain ⟨s, hs⟩ := htext capacity rfl
    have hroom : min (Word.read bs).toInt32.toInt.toNat capacity ≤
        (bs.drop ColumnType.lengthWidth).length := by
      have hwidth : ColumnType.lengthWidth + capacity ≤ bs.length := hlength
      rw [List.length_drop]
      omega
    have hpayload : (Utf8.encode s).length =
        min (Word.read bs).toInt32.toInt.toNat capacity := by
      rw [hs, payload, List.length_take, Nat.min_eq_left hroom]
    have hread : readField (.text capacity) bs = .text s := by
      rw [payload] at hs
      simp only [readField]
      rw [Bytes.fit_of_le hroom, ← hs, Utf8.decode_encode]
    have hcut : Utf8.cut capacity s = s :=
      Utf8.cut_of_length_le (hpayload.trans_le (Nat.min_le_right _ _))
    have hkeep : (ColumnType.text capacity).keep (.text s) = .text s := by
      rw [ColumnType.keep, hcut]
    rw [hread]
    refine ⟨rfl, fun t ht => ?_, hkeep⟩
    rw [hkeep] at ht
    cases ht
    have hmax := (Word.read bs).toInt32.toInt_lt
    rw [hpayload]
    omega

/-- Every image of a row with well-formed texts can be read. -/
lemma exists_readRow {types : List ColumnType} {image : Bytes}
    (hlength : image.length = ColumnType.totalWidth types)
    (htexts : ∀ i capacity, types[i]? = some (.text capacity) → ∃ s,
      Utf8.encode s = payload capacity (image.drop (ColumnType.totalWidth (types.take i)))) :
    ∃ values, readRow types (ColumnType.totalWidth types) image = .ok values ∧
      List.Forall₂ ColumnType.Settled types values := by
  induction types generalizing image with
  | nil => exact ⟨[], rfl, .nil⟩
  | cons ty types ih =>
    rw [ColumnType.totalWidth] at hlength ⊢
    have hrest : (image.drop ty.width).length = ColumnType.totalWidth types := by
      rw [List.length_drop, hlength, Nat.add_sub_cancel_left]
    obtain ⟨values, hread, hvalues⟩ := ih hrest fun i capacity hi => by
      obtain ⟨s, hs⟩ := htexts (i + 1) capacity hi
      refine ⟨s, ?_⟩
      rw [hs, List.take_succ_cons, ColumnType.totalWidth, List.drop_drop]
    have hroom : ¬ ty.width + ColumnType.totalWidth types < ty.width := by omega
    refine ⟨readField ty image :: values, ?_, .cons ?_ hvalues⟩
    · rw [readRow, if_neg hroom, Nat.add_sub_cancel_left, hread]
      rfl
    · refine settled_readField (hlength ▸ Nat.le_add_right _ _) fun capacity hty => ?_
      exact htexts 0 capacity (congrArg some hty)

end Value

namespace Page

/-! ## Pages that were read -/

/-- In every slot of a page image that is marked as occupied, the texts are well-formed. -/
def TextsFormed (schema : Schema) (layout : PageLayout) (image : Bytes) : Prop :=
  ∀ slot < layout.slots,
    Word.bit (Word.read (image.drop (4 * (slot / 32)))) (slot % 32) = true →
      ∀ i capacity, schema.shape[i]? = some (.text capacity) → ∃ s, Utf8.encode s =
        Value.payload capacity (image.drop
          (layout.slotOffset slot + ColumnType.totalWidth (schema.shape.take i)))

variable {id : PageId} {schema : Schema} {layout : PageLayout} {data : Bytes} {slot : ℕ}

/-- What is wanted of the entry that is read from a slot. -/
structure Regains (p : Page) (slot : ℕ) (entry : Option Row) : Prop where
  isSome_eq : entry.isSome = p.isUsed slot
  row : ∀ r, entry = some r → r.schema = p.schema ∧ r.recordId = some (p.recordIdOf slot) ∧
    ∃ values, r.fields = values.map some ∧ List.Forall₂ ColumnType.Settled p.schema.shape values

/-- The texts of an occupied slot are those of its image, which reaches as far as they do. -/
lemma TextsFormed.of_imageBit {image : Bytes} (htexts : TextsFormed schema layout image)
    (hsize : layout.rowSize = schema.byteSize) (hslot : slot < layout.slots)
    (hused : imageBit image slot = true) {i capacity : ℕ}
    (hi : schema.shape[i]? = some (.text capacity)) :
    ∃ s, Utf8.encode s = Value.payload capacity
      ((slotImage layout image slot).drop (ColumnType.totalWidth (schema.shape.take i))) := by
  obtain ⟨s, hs⟩ := htexts slot hslot hused i capacity hi
  have hroom : (ColumnType.text capacity).width ≤
      layout.rowSize - ColumnType.totalWidth (schema.shape.take i) := by
    have hend := ColumnType.totalWidth_take_add_le hi
    rw [hsize, Schema.byteSize]
    omega
  refine ⟨s, ?_⟩
  rw [slotImage, List.drop_take, Value.payload_take hroom, List.drop_drop]
  exact hs

lemma exists_regained_entry (htexts : TextsFormed schema layout (Bytes.fit layout.stride data))
    (hsize : layout.rowSize = schema.byteSize) (hslot : slot < layout.slots) :
    ∃ entry, slotEntry id schema layout (Bytes.fit layout.stride data) slot = .ok entry ∧
      (marked id schema layout (decodeBitmap layout data)).Regains slot entry := by
  cases hused : imageBit (Bytes.fit layout.stride data) slot with
  | false =>
    refine ⟨none, slotEntry_of_free hused, ?_, fun r hr => ?_⟩
    · rw [isUsed_marked hslot, hused]
      rfl
    · cases hr
  | true =>
    have hlength : (slotImage layout (Bytes.fit layout.stride data) slot).length =
        ColumnType.totalWidth schema.shape :=
      (length_slotImage (Bytes.length_fit _ _) hslot).trans hsize
    obtain ⟨values, hread, hvalues⟩ :=
      Value.exists_readRow hlength fun i capacity => htexts.of_imageBit hsize hslot hused
    rw [← Schema.byteSize, ← hsize] at hread
    refine ⟨_, slotEntry_of_used hused hread, ?_, fun r hr => ?_⟩
    · rw [isUsed_marked hslot, hused]
      rfl
    · cases hr
      exact ⟨rfl, rfl, values, rfl, hvalues⟩

/-- A page that was read, and that could have been made by storing rows. -/
structure Regained (p : Page) : Prop where
  length_entries : p.entries.length = p.layout.slots
  size_bitmap : p.bitmap.size = p.layout.headerWords
  regains : ∀ slot < p.layout.slots, p.Regains slot (p.row? slot)

lemma exists_decode (id : PageId)
    (htexts : TextsFormed schema layout (Bytes.fit layout.stride data))
    (hsize : layout.rowSize = schema.byteSize) :
    ∃ p, decode id schema layout data = .ok p ∧ p.id = id ∧ p.schema = schema ∧
      p.layout = layout ∧ p.Regained := by
  obtain ⟨entries, hdecode, hlength, hregains⟩ :=
    exists_decode_of_entries id fun slot hslot => exists_regained_entry htexts hsize hslot
  refine ⟨_, hdecode, rfl, rfl, rfl, hlength, size_decodeBitmap layout data, fun slot hslot => ?_⟩
  have hslot' : slot < entries.length := hlength.symm ▸ hslot
  rw [row?_eq_getElem hslot']
  exact ⟨(hregains slot hslot').isSome_eq, (hregains slot hslot').row⟩

namespace Regained

variable {p : Page}

lemma row (hp : p.Regained) {r : Row} (hr : p.row? slot = some r) :
    r.schema = p.schema ∧ r.recordId = some (p.recordIdOf slot) ∧
      ∃ values, r.fields = values.map some ∧
        List.Forall₂ ColumnType.Settled p.schema.shape values := by
  by_cases hslot : slot < p.layout.slots
  · exact (hp.regains slot hslot).row r hr
  · rw [row?_eq_none (hp.length_entries ▸ Nat.le_of_not_lt hslot)] at hr
    cases hr

lemma sound (hp : p.Regained) : p.Sound where
  length_entries := hp.length_entries
  size_bitmap := hp.size_bitmap
  isUsed_eq slot := by
    by_cases hslot : slot < p.layout.slots
    · exact (hp.regains slot hslot).isSome_eq.symm
    · rw [isUsed_eq_bitAt, decide_eq_false hslot,
        row?_eq_none (hp.length_entries ▸ Nat.le_of_not_lt hslot)]
      rfl
  stored slot r hr := by
    obtain ⟨hschema, hrecord, values, hfields, hvalues⟩ := hp.row hr
    refine ⟨⟨by rw [hschema], ?_⟩, hrecord⟩
    rw [hfields, List.forall₂_map_right_iff]
    exact hvalues.imp fun ty v h => ⟨v, rfl, h.fits⟩

lemma legible (hp : p.Regained) : p.Legible := by
  intro slot r hr
  obtain ⟨-, -, values, hfields, hvalues⟩ := hp.row hr
  rw [hfields, List.forall₂_map_right_iff]
  exact hvalues.imp fun ty v h => ⟨v, rfl, h.fits, h.legible⟩

/-- The columns keep all of a page that was read. -/
lemma keep_eq (hp : p.Regained) : p.keep p.schema = p := by
  have hrow : ∀ entry ∈ p.entries, entry.map (Row.keep p.schema) = entry := by
    rintro (_ | r) hentry
    · rfl
    · obtain ⟨slot, hslot⟩ := exists_row?_of_mem ((mem_rows_iff p r).2 hentry)
      obtain ⟨hschema, -, values, hfields, hvalues⟩ := hp.row hslot
      have hkeep : List.zipWith (fun ty field => field.map ty.keep) p.schema.shape r.fields =
          r.fields := by
        rw [hfields]
        clear hfields
        generalize p.schema.shape = types at hvalues
        induction hvalues with
        | nil => rfl
        | cons h _ ih => rw [List.map_cons, List.zipWith_cons_cons, ih, Option.map_some, h.keep_eq]
      rw [Option.map_some, Row.keep, hkeep, ← hschema]
  rw [keep, List.map_congr_left hrow, List.map_id']

end Regained

/-- **Bytes of any origin are read as a page that can be written and read again without loss**, as
long as the texts in its occupied slots are well-formed.  The bytes may be cut short or go on behind
the page, and its other bytes may be anything.  If the page has more bytes than a buffer can hold,
it is not read at all. -/
theorem decode_encode_decoded (hvalid : layout.Valid) (hsize : layout.rowSize = schema.byteSize)
    (id : PageId) (data : Bytes)
    (htexts : TextsFormed schema layout (Bytes.fit layout.stride data)) :
    (layout.stride ≤ Size.bufferLimit →
      ∃ p bytes, decodeBounded id schema layout data = .ok p ∧ p.encodeBounded = .ok bytes ∧
        bytes.length = layout.stride ∧ decodeBounded id schema layout bytes = .ok p ∧
        (decodeBounded id schema layout bytes).bind encodeBounded = .ok bytes) ∧
    (Size.bufferLimit < layout.stride → ∃ size,
      decodeBounded id schema layout data = .error (.violation (.sizeOutOfRange size))) := by
  refine ⟨fun hstride => ?_, fun hstride => ?_⟩
  · have hbounded := fun data => decodeBounded_of_stride id data hvalid hsize hstride
    obtain ⟨p, hdecode, rfl, rfl, rfl, hp⟩ := exists_decode id htexts hsize
    obtain ⟨bytes, hbytes, hlength⟩ := hp.sound.exists_encode hsize
    have hagain := hp.sound.decode_encode hsize hp.legible hbytes rfl
    rw [hp.keep_eq] at hagain
    have hencode : p.encodeBounded = .ok bytes := by
      rw [encodeBounded_of_stride hvalid hsize hstride, hbytes]
      rfl
    have hreread : decodeBounded p.id p.schema p.layout bytes = .ok p := by
      rw [hbounded, hagain]
      rfl
    refine ⟨p, bytes, ?_, hencode, hlength, hreread, ?_⟩
    · rw [hbounded, hdecode]
      rfl
    · rw [hreread]
      exact hencode
  · obtain ⟨size, hsize⟩ := decodeBounded_of_not_held
      (mt hvalid.held_iff.1 (Nat.not_le.2 hstride))
    exact ⟨size, hsize id schema data⟩

/-- Two rows on a page that ends early, with bits of no slot, a negative length with a rest of an
older text behind it, and a length that is too large. -/
def foreignNotes : Bytes :=
  [0xF0, 0, 0, 3, 0, 0, 0, 7, 0xFF, 0xFF, 0xFF, 0xFF, 1, 2, 0, 0, 0, 9, 0, 0, 0, 9, 104, 105]

theorem decode_encode_decoded_foreignNotes :
    ∃ p bytes, decodeBounded ⟨⟨0⟩, 0⟩ notes noteLayout foreignNotes = .ok p ∧
      p.encodeBounded = .ok bytes ∧ bytes.length = 36 ∧
      decodeBounded ⟨⟨0⟩, 0⟩ notes noteLayout bytes = .ok p := by
  have htexts : TextsFormed notes noteLayout (Bytes.fit noteLayout.stride foreignNotes) := by
    intro slot hslot hbit i capacity hi
    obtain ⟨rfl, rfl⟩ : i = 1 ∧ capacity = 2 := by
      rcases i with _ | _ | i
      · cases hi
      · cases hi
        exact ⟨rfl, rfl⟩
      · cases hi
    have hslot' : slot < 3 := hslot
    obtain rfl | rfl | rfl : slot = 0 ∨ slot = 1 ∨ slot = 2 := by omega
    · exact ⟨"", by decide +kernel⟩
    · exact ⟨"hi", by decide +kernel⟩
    · exact absurd hbit (by decide +kernel)
  have hsize : noteLayout.rowSize = notes.byteSize := rfl
  obtain ⟨p, bytes, hdecode, hbytes, hlength, hagain, -⟩ :=
    (decode_encode_decoded (by decide) hsize ⟨⟨0⟩, 0⟩ foreignNotes htexts).1 (by decide)
  exact ⟨p, bytes, hdecode, hbytes, hlength, hagain⟩

/-- Pages with two slots of half the bytes that a buffer cannot have. -/
def vastLayout : PageLayout := ⟨9223372036854775808, 4611686018427387904, by decide⟩

/-- Rows of one text that fill such a slot. -/
def tomes : Schema := ⟨[⟨.text 4611686018427387900, none⟩], by decide⟩

/-- No bytes at all mark no slot. -/
lemma textsFormed_nil (schema : Schema) (layout : PageLayout) :
    TextsFormed schema layout (Bytes.fit layout.stride []) := by
  intro slot _ hbit
  have hread : ∀ count, Word.read (List.replicate count 0) = 0 :=
    fun count => Word.read_append_zeros count []
  rw [Bytes.fit_eq, List.take_nil, List.nil_append, List.drop_replicate, hread] at hbit
  simp [Word.bit] at hbit

/-- No bytes at all show no text that is not well-formed, but are not read as a page that is larger
than a buffer, although its layout is usable and its size can be counted. -/
theorem decodeBounded_tomes :
    vastLayout.Valid ∧ vastLayout.rowSize = tomes.byteSize ∧ vastLayout.stride ≤ Size.limit ∧
      TextsFormed tomes vastLayout (Bytes.fit vastLayout.stride []) ∧
      decodeBounded ⟨⟨0⟩, 0⟩ tomes vastLayout [] =
        .error (.violation (.sizeOutOfRange 9223372036854775812)) := by
  have hlarge : ¬ vastLayout.stride ≤ Size.bufferLimit := by decide
  refine ⟨by decide, by decide, by decide, textsFormed_nil _ _, ?_⟩
  rw [decodeBounded, Size.checkBuffer, Size.within, if_neg hlarge]
  rfl

end Page

end RowStore
