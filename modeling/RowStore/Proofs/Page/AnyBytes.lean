import RowStore.Bounded
import RowStore.Proofs.HeapFile.Errors
import RowStore.Proofs.Page.Reencoding

/-!
# What any bytes are as a page

Any bytes can be read as a page, with slots that have the size of the schema's rows or another.
They are cut or filled up with zeros to the size of a page, which makes their image.  A slot is in
use if its bit is set in the words at the beginning of the image, and what it holds is read at its
place there (`Page.slotEntry`).

So there are two cases.  If slots are too small for the rows and one of them is in use, the first
of these is told of (`Page.Cramped.decode`).  Otherwise there is a page that shows the image
(`Page.Shown`): where the slots are too small, none is in use, and where they are not, a row ends
before its slot does, and the slot before the image does.

Nothing else of the bytes matters: with the same bits and the same bytes in the slots in use, the
same rows are read (`Page.decode_congr`).  A heap file has slots of the size of its rows, so no page
of it is ever found damaged.  What cannot be read is a page that is too large to be held, whatever
its bytes are.
-/

namespace RowStore

lemma Bytes.fit_take {length room : ℕ} (h : length ≤ room) (bs : Bytes) :
    fit length (bs.take room) = fit length bs := by
  have hrest : length - min room bs.length = length - bs.length := by omega
  rw [fit_eq, fit_eq, List.take_take, Nat.min_eq_left h, List.length_take, hrest]

namespace Value

/-- A value is found in any bytes that reach to the end of its column. -/
lemma readField_take {ty : ColumnType} {room : ℕ} (h : ty.width ≤ room) (bs : Bytes) :
    readField ty (bs.take room) = readField ty bs := by
  cases ty with
  | int => rw [readField, readField, Word.read_take_of_le h]
  | text capacity =>
    have hwidth : ColumnType.lengthWidth + capacity ≤ room := h
    have hfour : 4 ≤ room := Nat.le_trans (Nat.le_add_right 4 capacity) h
    have hrest : min (Word.read bs).toInt32.toInt.toNat capacity ≤
        room - ColumnType.lengthWidth := by omega
    simp only [readField, Word.read_take_of_le hfour, List.drop_take, Bytes.fit_take hrest]

lemma read_of_le {ty : ColumnType} {bs : Bytes} (h : ty.width ≤ bs.length) :
    read ty bs = .ok (readField ty bs, bs.drop ty.width) := if_neg (Nat.not_lt.2 h)

/-- The values of a row image are read one behind the other. -/
lemma getElem?_of_readRow {types : List ColumnType} {room : ℕ} {bs : Bytes} {values : List Value}
    (h : readRow types room bs = .ok values) {i : ℕ} {ty : ColumnType} (hi : types[i]? = some ty) :
    values[i]? = some (readField ty (bs.drop (ColumnType.totalWidth (types.take i)))) := by
  induction types generalizing room bs values i with
  | nil => cases hi
  | cons first types ih =>
    rw [readRow] at h
    split at h
    · cases h
    · rcases hrest : readRow types (room - first.width) (bs.drop first.width) with e | rest <;>
        rw [hrest] at h <;> cases h
      rcases i with _ | i
      · cases hi
        rfl
      · rw [List.getElem?_cons_succ] at hi ⊢
        rw [ih hrest hi, List.take_succ_cons, ColumnType.totalWidth, List.drop_drop]

/-- There is no room for the first column that goes beyond the image. -/
lemma readRow_eq_error {types : List ColumnType} {room : ℕ}
    (h : room < ColumnType.totalWidth types) (bs : Bytes) :
    readRow types room bs = .error (.io .endOfFile) := by
  induction types generalizing room bs with
  | nil => cases h
  | cons ty types ih =>
    rw [readRow]
    split
    · rfl
    · rw [ColumnType.totalWidth] at h
      rw [ih (by omega)]
      rfl

end Value

namespace Page

variable {id : PageId} {schema : Schema} {layout : PageLayout} {data data' image : Bytes} {slot : ℕ}

/-! ## What a slot holds -/

/-- Why a slot cannot be read. -/
def crampedText (slot : ℕ) : String :=
  "slot " ++ toString slot ++ ": " ++ (Error.io .endOfFile).message

/-- Some slot is in use, but slots are too small for rows of the schema. -/
def Cramped (schema : Schema) (layout : PageLayout) (image : Bytes) : Prop :=
  layout.rowSize < schema.byteSize ∧ ∃ slot < layout.slots, imageBit image slot = true

/-- A slot is in use, and none in front of it is. -/
def FirstInUse (image : Bytes) (slot : ℕ) : Prop :=
  imageBit image slot = true ∧ ∀ j < slot, imageBit image j = false

/-- A row is what the image says about a slot: its fields are read one behind the other from where
the slot begins. -/
structure ReadFrom (p : Page) (image : Bytes) (slot : ℕ) (r : Row) : Prop where
  schema_eq : r.schema = p.schema
  recordId_eq : r.recordId = some (p.recordIdOf slot)
  width_eq : r.width = p.schema.width
  field : ∀ i ty, p.schema.shape[i]? = some ty → ∃ v rest,
    Value.read ty (image.drop (p.layout.slotOffset slot +
      ColumnType.totalWidth (p.schema.shape.take i))) = .ok (v, rest) ∧
    r.fields[i]? = some (some v)

lemma decodeRow_eq_error {p : Page} {bs : Bytes} {e : Error}
    (h : Value.readRow p.schema.shape p.layout.rowSize bs = .error e) : p.decodeRow slot bs =
      .error (.pageCorrupted p.id ("slot " ++ toString slot ++ ": " ++ e.message)) := by
  rw [decodeRow, h]

lemma slotEntry_eq_error (hsize : layout.rowSize < schema.byteSize)
    (h : imageBit image slot = true) :
    slotEntry id schema layout image slot = .error (.pageCorrupted id (crampedText slot)) := by
  have hread : Value.readRow schema.shape layout.rowSize (slotImage layout image slot) =
      .error (.io .endOfFile) := Value.readRow_eq_error hsize _
  have hrow : (empty id schema layout).decodeRow slot (slotImage layout image slot) =
      .error (.pageCorrupted id (crampedText slot)) := decodeRow_eq_error hread
  rw [slotEntry, if_pos h, hrow]
  rfl

lemma exists_slotEntry (hlength : image.length = layout.stride)
    (hsize : schema.byteSize ≤ layout.rowSize) (hslot : slot < layout.slots)
    (h : imageBit image slot = true) : ∃ r, slotEntry id schema layout image slot = .ok (some r) ∧
      (empty id schema layout).ReadFrom image slot r := by
  have hroom : ColumnType.totalWidth schema.shape ≤ layout.rowSize := hsize
  obtain ⟨values, hvalues⟩ := Value.exists_readRow_of_le hroom (slotImage layout image slot)
  have hfits := Value.fits_of_readRow hvalues
  refine ⟨_, slotEntry_of_used h hvalues, rfl, rfl, ?_, fun i ty hi => ?_⟩
  · show (values.map some).length = schema.width
    rw [List.length_map, ← hfits.length_eq, Schema.length_shape]
  · have hend := ColumnType.totalWidth_take_add_le hi
    have hinside : ColumnType.totalWidth (schema.shape.take i) + ty.width ≤ layout.rowSize :=
      Nat.le_trans hend hsize
    have hstride := slotOffset_add_rowSize_le hslot
    have hvalue : values[i]? = some (Value.readField ty (image.drop
        (layout.slotOffset slot + ColumnType.totalWidth (schema.shape.take i)))) := by
      rw [Value.getElem?_of_readRow hvalues hi, slotImage, List.drop_take, List.drop_drop,
        Value.readField_take (by omega)]
    have hlong : ty.width ≤ (image.drop (layout.slotOffset slot +
        ColumnType.totalWidth (schema.shape.take i))).length := by
      rw [List.length_drop, hlength]
      omega
    refine ⟨_, _, Value.read_of_le hlong, ?_⟩
    rw [List.getElem?_map, hvalue]
    rfl

/-! ## Pages -/

/-- A page shows an image: its words are those of the image, a slot is in use exactly if its bit is
set there, and the rows are read from where the slots begin. -/
structure Shown (p : Page) (image : Bytes) : Prop where
  length_entries : p.entries.length = p.layout.slots
  size_bitmap : p.bitmap.size = p.layout.headerWords
  word : ∀ i < p.layout.headerWords, p.bitmap[i]? = some (Word.read (image.drop (4 * i)))
  isUsed_eq : ∀ slot < p.layout.slots, p.isUsed slot = imageBit image slot
  isSome_eq : ∀ slot < p.layout.slots, (p.row? slot).isSome = imageBit image slot
  row : ∀ slot r, p.row? slot = some r → p.ReadFrom image slot r

/-- A row in use that is too small for its columns is told of, the first of them if there are
more. -/
lemma decode_eq_error (hsize : layout.rowSize < schema.byteSize) (hslot : slot < layout.slots)
    (h : FirstInUse (Bytes.fit layout.stride data) slot) :
    decode id schema layout data = .error (.pageCorrupted id (crampedText slot)) := by
  have hlt : slot < (List.range layout.slots).length := by rwa [List.length_range]
  rw [decode_eq, mapM_eq_error_of_first hlt]
  · rfl
  · rw [List.getElem_range]
    exact slotEntry_eq_error hsize h.1
  · intro j hj hfirst
    rw [List.getElem_range]
    exact ⟨none, slotEntry_of_free (h.2 j hfirst)⟩

lemma Cramped.decode (id : PageId)
    (h : Cramped schema layout (Bytes.fit layout.stride data)) :
    ∃ slot < layout.slots, FirstInUse (Bytes.fit layout.stride data) slot ∧
      decode id schema layout data = .error (.pageCorrupted id (crampedText slot)) := by
  obtain ⟨hsize, hlive⟩ := h
  classical
  obtain ⟨hslot, hbit⟩ := Nat.find_spec hlive
  have hfirst : FirstInUse (Bytes.fit layout.stride data) (Nat.find hlive) := by
    refine ⟨hbit, fun j hj => Bool.eq_false_iff.2 fun hj' => ?_⟩
    exact Nat.find_min hlive hj ⟨Nat.lt_trans hj hslot, hj'⟩
  exact ⟨_, hslot, hfirst, decode_eq_error hsize hslot hfirst⟩

/-- Where no slot that is in use is too small, the bytes are read as a page that shows them. -/
lemma exists_decode_of_not_cramped (id : PageId)
    (h : ¬ Cramped schema layout (Bytes.fit layout.stride data)) :
    ∃ p, Page.decode id schema layout data = .ok p ∧ p.id = id ∧ p.schema = schema ∧
      p.layout = layout ∧ p.Shown (Bytes.fit layout.stride data) := by
  have hentry : ∀ slot < layout.slots, ∃ entry,
      slotEntry id schema layout (Bytes.fit layout.stride data) slot = .ok entry ∧
      entry.isSome = imageBit (Bytes.fit layout.stride data) slot ∧ ∀ r, entry = some r →
        (empty id schema layout).ReadFrom (Bytes.fit layout.stride data) slot r := by
    intro slot hslot
    cases hbit : imageBit (Bytes.fit layout.stride data) slot with
    | false => exact ⟨none, slotEntry_of_free hbit, rfl, fun r hr => by cases hr⟩
    | true =>
      have hsize : schema.byteSize ≤ layout.rowSize :=
        Nat.le_of_not_lt fun hlt => h ⟨hlt, slot, hslot, hbit⟩
      obtain ⟨r, hr, hread⟩ := exists_slotEntry (Bytes.length_fit _ _) hsize hslot hbit
      exact ⟨some r, hr, rfl, fun r' hr' => Option.some.inj hr' ▸ hread⟩
  obtain ⟨entries, hdecode, hlength, hshown⟩ := exists_decode_of_entries id hentry
  refine ⟨_, hdecode, rfl, rfl, rfl, hlength, size_decodeBitmap layout data, fun i hi => ?_,
    fun slot hslot => ?_, fun slot hslot => ?_, fun slot r hr => ?_⟩
  · have hi' : i < layout.headerWords := hi
    have hroom : 4 * i + 4 ≤ layout.stride := by
      rw [PageLayout.stride, PageLayout.headerBytes, PageLayout.wordBytes]
      omega
    rw [Word.read_drop_fit hroom]
    exact getElem?_decodeBitmap layout data hi'
  · have hmarked : (marked id schema layout (decodeBitmap layout data)).isUsed slot = _ :=
      isUsed_marked hslot
    exact hmarked
  · have hslot' : slot < entries.length := hlength.symm ▸ hslot
    rw [row?_eq_getElem hslot']
    exact (hshown slot hslot').1
  · rcases Nat.lt_or_ge slot entries.length with hslot | hslot
    · rw [row?_eq_getElem hslot] at hr
      obtain ⟨hschema, hrecord, hwidth, hfield⟩ := (hshown slot hslot).2 r hr
      exact ⟨hschema, hrecord, hwidth, hfield⟩
    · rw [row?_eq_none hslot] at hr
      cases hr

/-! ## Bytes that make no difference -/

/-- Two images have the same slots in use, and the same bytes in these. -/
def SameSlots (layout : PageLayout) (image image' : Bytes) : Prop :=
  ∀ slot < layout.slots, imageBit image' slot = imageBit image slot ∧
    (imageBit image slot = true → slotImage layout image' slot = slotImage layout image slot)

lemma decode_congr (h : SameSlots layout (Bytes.fit layout.stride data)
    (Bytes.fit layout.stride data')) :
    (Page.decode id schema layout data').map entries =
      (Page.decode id schema layout data).map entries := by
  have hentries : (List.range layout.slots).mapM
      (slotEntry id schema layout (Bytes.fit layout.stride data')) =
        (List.range layout.slots).mapM
          (slotEntry id schema layout (Bytes.fit layout.stride data)) := by
    refine mapM_congr_of_mem fun slot hslot => ?_
    obtain ⟨hbit, hbytes⟩ := h slot (List.mem_range.1 hslot)
    cases hlive : imageBit (Bytes.fit layout.stride data) slot with
    | false => rw [slotEntry_of_free hlive, slotEntry_of_free (hbit.trans hlive)]
    | true => rw [slotEntry, slotEntry, hbit, hbytes hlive]
  rw [decode_eq, decode_eq, hentries]
  rcases (List.range layout.slots).mapM
    (slotEntry id schema layout (Bytes.fit layout.stride data)) with e | entries <;> rfl

end Page

/-! ## Sizes -/

lemma map_liftError {α β : Type} (x : Except Error α) (g : α → β) :
    (liftError x).map g = liftError (x.map g) := by
  rcases x with e | a <;> rfl

lemma HeapFile.readPageBounded_ne_pageCorrupted (f : HeapFile) (d : Disk) (page place : PageId)
    (reason : String) :
    f.readPageBounded d page ≠ .error (.error (.pageCorrupted place reason)) := by
  have hlift : liftError (f.readPage d page) ≠ .error (.error (.pageCorrupted place reason)) := by
    intro h
    rcases hread : f.readPage d page with e | p <;> rw [hread] at h <;> cases h
    exact f.readPage_ne_pageCorrupted d page place reason hread
  rw [HeapFile.readPageBounded, Size.checkBuffer, Size.within]
  split
  · split
    · exact hlift
    · intro h
      cases h
  · exact hlift

namespace Page

variable {id : PageId} {schema : Schema} {layout : PageLayout} {data : Bytes} {slot : ℕ}

lemma Cramped.decodeBounded (hcount : schema.byteSize ≤ Size.limit) (hheld : layout.Held)
    (id : PageId) (h : Cramped schema layout (Bytes.fit layout.stride data)) :
    ∃ slot < layout.slots, FirstInUse (Bytes.fit layout.stride data) slot ∧
      Page.decodeBounded id schema layout data =
        .error (.error (.pageCorrupted id (crampedText slot))) := by
  obtain ⟨slot, hslot, hfirst, hdecode⟩ := Cramped.decode id h
  refine ⟨slot, hslot, hfirst, ?_⟩
  rw [decodeBounded_of_held id data hheld hcount, hdecode]
  rfl

lemma exists_decodeBounded_of_not_cramped (hcount : schema.byteSize ≤ Size.limit)
    (hheld : layout.Held) (id : PageId)
    (h : ¬ Cramped schema layout (Bytes.fit layout.stride data)) :
    ∃ p, Page.decodeBounded id schema layout data = .ok p ∧ p.id = id ∧ p.schema = schema ∧
      p.layout = layout ∧ p.Shown (Bytes.fit layout.stride data) := by
  obtain ⟨p, hp, hshown⟩ := exists_decode_of_not_cramped id h
  refine ⟨p, ?_, hshown⟩
  rw [decodeBounded_of_held id data hheld hcount, hp]
  rfl

/-- **Any bytes are read as what they show, or the first slot that is too small is told of.**  There
is no page exactly if slots are too small for the rows and one of them is in use.  Otherwise exactly
the slots are in use whose bits are set in the image, and the fields of their rows are those at
their places in it.  Everything that is read lies within the image, and what else is in the bytes
makes no difference.  The one thing that is not done is to hold a page of more bytes than a buffer
can have, or with more slots than there is room for their entries.  From a file, no page is found
damaged. -/
theorem decodeBounded_shown (id : PageId) {schema : Schema} (layout : PageLayout) (data : Bytes)
    (hcount : schema.byteSize ≤ Size.limit) :
    ((∃ promise, decodeBounded id schema layout data = .error (.violation promise)) ↔
      ¬ layout.Held) ∧
    (layout.Held →
      ((∃ place reason, decodeBounded id schema layout data =
          .error (.error (.pageCorrupted place reason))) ↔
        Cramped schema layout (Bytes.fit layout.stride data)) ∧
      (Cramped schema layout (Bytes.fit layout.stride data) → ∃ slot < layout.slots,
        FirstInUse (Bytes.fit layout.stride data) slot ∧ decodeBounded id schema layout data =
          .error (.error (.pageCorrupted id (crampedText slot)))) ∧
      (¬ Cramped schema layout (Bytes.fit layout.stride data) →
        ∃ p, decodeBounded id schema layout data = .ok p ∧ p.id = id ∧ p.schema = schema ∧
          p.layout = layout ∧ p.Shown (Bytes.fit layout.stride data))) ∧
    (∀ data', SameSlots layout (Bytes.fit layout.stride data) (Bytes.fit layout.stride data') →
      (decodeBounded id schema layout data').map entries =
        (decodeBounded id schema layout data).map entries) ∧
    (∀ slot < layout.slots, 4 * (slot / 32) + 4 ≤ layout.headerBytes ∧
      layout.headerBytes ≤ layout.slotOffset slot ∧
      layout.slotOffset slot + layout.rowSize ≤ layout.stride) ∧
    ∀ (f : HeapFile) (d : Disk) (page place : PageId) (reason : String),
      f.readPageBounded d page ≠ .error (.error (.pageCorrupted place reason)) := by
  refine ⟨⟨?_, fun hheld => ?_⟩, fun hheld => ⟨⟨?_, ?_⟩, Cramped.decodeBounded hcount hheld id,
      exists_decodeBounded_of_not_cramped hcount hheld id⟩, ?_, fun slot => slot_within,
    HeapFile.readPageBounded_ne_pageCorrupted⟩
  · rintro ⟨promise, h⟩ hheld
    by_cases hcramped : Cramped schema layout (Bytes.fit layout.stride data)
    · obtain ⟨slot, -, -, hdecode⟩ := hcramped.decodeBounded hcount hheld id
      cases hdecode.symm.trans h
    · obtain ⟨p, hp, -⟩ := exists_decodeBounded_of_not_cramped hcount hheld id hcramped
      cases hp.symm.trans h
  · obtain ⟨size, hsize⟩ := decodeBounded_of_not_held hheld
    exact ⟨_, hsize id schema data⟩
  · rintro ⟨place, reason, h⟩
    by_contra hcramped
    obtain ⟨p, hp, -⟩ := exists_decodeBounded_of_not_cramped hcount hheld id hcramped
    cases hp.symm.trans h
  · intro h
    obtain ⟨slot, -, -, hdecode⟩ := h.decodeBounded hcount hheld id
    exact ⟨id, _, hdecode⟩
  · intro data' hsame
    by_cases hheld : layout.Held
    · rw [decodeBounded_of_held id data hheld hcount, decodeBounded_of_held id data' hheld hcount,
        map_liftError, map_liftError, decode_congr hsame]
    · obtain ⟨size, hsize⟩ := decodeBounded_of_not_held hheld
      rw [hsize, hsize]

theorem decodeBounded_shown_foreignNotes :
    notes.byteSize ≤ Size.limit ∧
    (∃ p, decodeBounded ⟨⟨0⟩, 0⟩ notes noteLayout foreignNotes = .ok p ∧
      p.Shown (Bytes.fit noteLayout.stride foreignNotes)) ∧
    decodeBounded ⟨⟨0⟩, 0⟩ notes ⟨18, 6, by decide⟩ foreignNotes = .error (.error
      (.pageCorrupted ⟨⟨0⟩, 0⟩ "slot 0: I/O error: unexpected end of file")) := by
  have hcount : notes.byteSize ≤ Size.limit := by decide
  have hroomy : ¬ Cramped notes noteLayout (Bytes.fit noteLayout.stride foreignNotes) :=
    fun h => absurd h.1 (by decide)
  have hcramped : Cramped notes ⟨18, 6, by decide⟩ (Bytes.fit 22 foreignNotes) :=
    ⟨by decide, 0, by decide, by decide +kernel⟩
  refine ⟨hcount, ?_, ?_⟩
  · obtain ⟨-, hread, -⟩ := decodeBounded_shown ⟨⟨0⟩, 0⟩ noteLayout foreignNotes hcount
    obtain ⟨p, hp, -, -, -, hshown⟩ := (hread (by decide)).2.2 hroomy
    exact ⟨p, hp, hshown⟩
  · obtain ⟨-, hread, -⟩ := decodeBounded_shown ⟨⟨0⟩, 0⟩ ⟨18, 6, by decide⟩ foreignNotes hcount
    obtain ⟨slot, hslot, ⟨-, hfirst⟩, hdecode⟩ := (hread (by decide)).2.1 hcramped
    obtain rfl : slot = 0 := by
      by_contra hne
      exact absurd (hfirst 0 (Nat.pos_of_ne_zero hne)) (by decide +kernel)
    exact hdecode

/-- No bytes at all cannot be read as a page that is larger than a buffer, although its size can be
counted. -/
theorem decodeBounded_vastLayout :
    vastLayout.stride ≤ Size.limit ∧ notes.byteSize ≤ Size.limit ∧
      decodeBounded ⟨⟨0⟩, 0⟩ notes vastLayout [] =
        .error (.violation (.sizeOutOfRange 9223372036854775812)) := by
  refine ⟨by decide, by decide, ?_⟩
  have hlarge : ¬ vastLayout.stride ≤ Size.bufferLimit := by decide
  rw [decodeBounded, Size.checkBuffer, Size.within, if_neg hlarge]
  rfl

end Page

end RowStore
