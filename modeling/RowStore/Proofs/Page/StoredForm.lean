import RowStore.Bounded
import RowStore.Proofs.Page.Codec

/-!
# The stored form of an edited page

A page is edited by storing and deleting rows, and an edit that is refused leaves it as it is
(`Page.Edit`).  Whatever the edits are, the page that they make of an empty one can be written, and
its bytes show it: every slot has its bit, and what holds no row is zero (`Page.Shows`).  Reading
the bytes gives the same rows in the same slots, with what their columns keep of the values, and
these are written on the same bytes again (`Page.decode_encode_edited`).  Only a page of more bytes
than a buffer can hold is not written at all; it can still be edited.
-/

namespace RowStore

namespace Page

/-! ## Edits -/

/-- A change of a page that its user can ask for. -/
inductive Edit where
  /-- Stores a row. -/
  | insert (r : Row)
  /-- Frees the slot of a record. -/
  | delete (id : RecordId)

/-- The page after an edit, which may be refused. -/
def edit (p : Page) : Edit → Page
  | .insert r =>
    match p.insert r with
    | .ok (_, p) => p
    | .error _ => p
  | .delete id =>
    match p.delete id with
    | .ok p => p
    | .error _ => p

/-- The page that edits make of an empty one. -/
def edited (id : PageId) (schema : Schema) (layout : PageLayout) (edits : List Edit) : Page :=
  edits.foldl edit (empty id schema layout)

/-- All that an edit may do is to free a slot or to put a row into it. -/
lemma edit_eq (p : Page) {e : Edit} (hwidth : ∀ r, e = .insert r → r.width = r.schema.width) :
    p.edit e = p ∨ ∃ slot entry, slot < p.layout.slots ∧ p.edit e = p.setSlot slot entry ∧
      ∀ r, entry = some r → r.Storable p.schema ∧ r.recordId = some (p.recordIdOf slot) := by
  cases e with
  | insert r =>
    rw [edit]
    rcases hcheck : p.check r with _ | _
    · rw [insert_eq_error hcheck]
      exact .inl rfl
    · rcases hslot : p.freeSlot? with _ | slot
      · refine .inl ?_
        simp only [insert, hcheck, hslot]
        rfl
      · rw [insert_eq_ok hcheck hslot]
        refine .inr ⟨slot, _, (freeSlot?_eq_some_iff.1 hslot).1, rfl, fun _ hr => ?_⟩
        cases hr
        exact ⟨(check_eq_ok_iff (hwidth r rfl)).1 hcheck, rfl⟩
  | delete id =>
    rw [edit, delete]
    by_cases h : id.page = p.id ∧ p.isUsed id.slot.toNat = true
    · rw [if_pos h]
      refine .inr ⟨id.slot.toNat, none, ?_, rfl, fun _ hr => by cases hr⟩
      have hused := h.2
      rw [isUsed_eq_bitAt, Bool.and_eq_true] at hused
      exact of_decide_eq_true hused.1
    · rw [if_neg h]
      exact .inl rfl

/-- What is kept when an entry that fits is put into a slot is kept by any edits. -/
lemma foldl_edit_induction {P : Page → Prop} {p : Page} (hp : P p)
    (hset : ∀ {q : Page} {slot : ℕ} (entry : Option Row), P q → slot < q.layout.slots →
      (∀ r, entry = some r → r.Storable q.schema ∧ r.recordId = some (q.recordIdOf slot)) →
      P (q.setSlot slot entry))
    {edits : List Edit} (hwidth : ∀ r, .insert r ∈ edits → r.width = r.schema.width) :
    P (edits.foldl edit p) := by
  induction edits generalizing p with
  | nil => exact hp
  | cons e edits ih =>
    refine ih ?_ fun r hr => hwidth r (List.mem_cons_of_mem e hr)
    rcases p.edit_eq (e := e) fun r hr => hwidth r (hr ▸ List.mem_cons_self) with
      heq | ⟨slot, entry, hslot, heq, hentry⟩ <;> rw [heq]
    · exact hp
    · exact hset entry hp hslot hentry

/-- What edits keep of the page that they began with. -/
structure Follows (p q : Page) : Prop where
  exact : q.Exact
  id_eq : q.id = p.id
  schema_eq : q.schema = p.schema
  layout_eq : q.layout = p.layout

lemma Follows.foldl_edit {p q : Page} (h : p.Follows q) {edits : List Edit}
    (hwidth : ∀ r, .insert r ∈ edits → r.width = r.schema.width) :
    p.Follows (edits.foldl Page.edit q) :=
  foldl_edit_induction h (fun entry hq hslot hentry =>
    ⟨hq.exact.setSlot hslot entry hentry, hq.id_eq, hq.schema_eq, hq.layout_eq⟩) hwidth

lemma follows_edited (id : PageId) (schema : Schema) (layout : PageLayout) {edits : List Edit}
    (hwidth : ∀ r, .insert r ∈ edits → r.width = r.schema.width) :
    (empty id schema layout).Follows (edited id schema layout edits) :=
  Follows.foldl_edit ⟨.empty id schema layout, rfl, rfl, rfl⟩ hwidth

/-! ## Bytes -/

/-- Bytes show a page: there are as many as the layout says, each slot has its bit, and all that
belongs to no row is zero. -/
structure Shows (p : Page) (bytes : Bytes) : Prop where
  length_eq : bytes.length = p.layout.stride
  /-- The bit of slot `i` is bit `i % 32` of word `i / 32`; those of no slot are clear. -/
  bit_eq : ∀ i < 32 * p.layout.headerWords,
    Word.bit (Word.read (bytes.drop (4 * (i / 32)))) (i % 32) = (p.row? i).isSome
  free : ∀ i < p.layout.slots, p.row? i = none →
    (bytes.drop (p.layout.slotOffset i)).take p.layout.rowSize =
      List.replicate p.layout.rowSize 0
  unused : bytes.drop (p.layout.slotOffset p.layout.slots) =
    List.replicate (p.layout.pageSize - p.layout.slots * p.layout.rowSize) 0

variable {p : Page} {bytes : Bytes}

lemma Sound.bit_of_encode (hp : p.Sound) (hbytes : p.encode = .ok bytes) {i : ℕ}
    (hi : i < 32 * p.layout.headerWords) :
    Word.bit (Word.read (bytes.drop (4 * (i / 32)))) (i % 32) = p.bitAt i := by
  have hword : i / 32 < p.layout.headerWords := Nat.div_lt_of_lt_mul hi
  rw [bitAt, ← hp.decodeBitmap_of_encode hbytes, PageLayout.wordBits,
    getElem?_decodeBitmap _ _ hword, Option.getD_some]

/-- The bytes at the place of a slot are its image. -/
lemma Sound.encodeEntry_of_encode (hp : p.Sound) (hsize : p.layout.rowSize = p.schema.byteSize)
    (hbytes : p.encode = .ok bytes) {i : ℕ} (hi : i < p.layout.slots) :
    p.encodeEntry (p.row? i) =
      .ok ((bytes.drop (p.layout.slotOffset i)).take p.layout.rowSize) := by
  obtain ⟨images, himages, -⟩ := encode_eq_ok_iff.1 hbytes
  have hpieces := hp.pieces_of_encode hsize hbytes himages
  have hcount := length_of_mapM_eq_ok himages
  have hentry : i < p.entries.length := hp.length_entries ▸ hi
  have himage : i < images.length := hcount ▸ hentry
  have hpiece : images[i] = (bytes.drop (p.layout.slotOffset i)).take p.layout.rowSize := by
    have hget := congrArg (·[i]?) hpieces
    rw [Bytes.getElem?_pieces hi, List.getElem?_eq_getElem himage, List.drop_drop] at hget
    exact (Option.some.inj hget).symm
  rw [row?_eq_getElem hentry, ← hpiece]
  exact getElem_of_mapM_eq_ok himages i hentry himage

lemma Sound.drop_of_encode (hp : p.Sound) (hsize : p.layout.rowSize = p.schema.byteSize)
    (hbytes : p.encode = .ok bytes) : bytes.drop (p.layout.slotOffset p.layout.slots) =
      List.replicate (p.layout.pageSize - p.layout.slots * p.layout.rowSize) 0 := by
  obtain ⟨images, himages, rfl⟩ := encode_eq_ok_iff.1 hbytes
  obtain ⟨images', himages', hlengths⟩ := hp.exists_images hsize
  obtain rfl := Except.ok.inj (himages'.symm.trans himages)
  refine List.drop_left' ?_
  rw [List.length_append, hp.length_bitmapBytes, Bytes.length_flatten hlengths,
    length_of_mapM_eq_ok himages, hp.length_entries, PageLayout.slotOffset]

lemma Exact.shows (hp : p.Exact) (hsize : p.layout.rowSize = p.schema.byteSize)
    (hbytes : p.encode = .ok bytes) (hlength : bytes.length = p.layout.stride) :
    p.Shows bytes where
  length_eq := hlength
  bit_eq i hi := (hp.toSound.bit_of_encode hbytes hi).trans (hp.bitAt_eq i)
  free i hi hfree := by
    have hentry := hp.toSound.encodeEntry_of_encode hsize hbytes hi
    rw [hfree] at hentry
    exact (Except.ok.inj hentry).symm
  unused := hp.toSound.drop_of_encode hsize hbytes

/-! ## Reading -/

/-- A page that was read is the one that was written: the same slots are in use, and their rows know
their places and hold what their columns keep of the values. -/
structure Restores (p q : Page) : Prop where
  id_eq : q.id = p.id
  schema_eq : q.schema = p.schema
  layout_eq : q.layout = p.layout
  bitmap_eq : q.bitmap = p.bitmap
  row : ∀ i, Option.Rel (fun r row => Row.Keeps p.schema r row ∧
    ∃ place, row.recordId = some place ∧ place.page = p.id ∧ place.slot.toNat = i)
      (p.row? i) (q.row? i)

lemma row?_keep (schema : Schema) (p : Page) (i : ℕ) :
    (p.keep schema).row? i = (p.row? i).map (Row.keep schema) := by
  rw [row?, row?, keep, List.getElem?_map]
  rcases p.entries[i]? with _ | _ | _ <;> rfl

lemma Sound.restores_keep (hp : p.Sound) (hvalid : p.layout.Valid) :
    p.Restores (p.keep p.schema) where
  id_eq := rfl
  schema_eq := rfl
  layout_eq := rfl
  bitmap_eq := rfl
  row i := by
    rw [row?_keep]
    rcases hrow : p.row? i with _ | r
    · exact .none
    · obtain ⟨hstorable, hrecord⟩ := hp.stored i r hrow
      have hslot := hp.lt_slots hrow
      refine .some ⟨hstorable.keeps rfl, p.recordIdOf i, hrecord, rfl, ?_⟩
      exact UInt16.toNat_ofNat_of_lt' (Nat.lt_of_lt_of_le hslot hvalid.2)

/-- What is kept of a page is written as the page is. -/
lemma encode_keep (p : Page) : (p.keep p.schema).encode = p.encode := by
  have hentries : (p.entries.map (Option.map (Row.keep p.schema))).mapM p.encodeEntry =
      p.entries.mapM p.encodeEntry := by
    rw [List.mapM_map]
    congr 1
    funext entry
    rcases entry with _ | r
    · rfl
    · exact encodeFields_keep p.schema.shape r.fields
  show (do
    let rows ← (p.entries.map (Option.map (Row.keep p.schema))).mapM p.encodeEntry
    _ : Except Error Bytes) = _
  rw [hentries]
  rfl

/-- **Reading an edited page undoes writing it.**  Under any layout that is usable and has slots of
the size of a row, what edits make of an empty page is written on as many bytes as the layout says,
with a bit for each slot and zeros for all that holds no row; the page that is read from them has
the same slots in use, and is written on the same bytes again.  If there are more bytes than a
buffer can hold, the page is not written. -/
theorem decode_encode_edited {schema : Schema} {layout : PageLayout} (hvalid : layout.Valid)
    (hsize : layout.rowSize = schema.byteSize) (hbounded : ∀ ty ∈ schema.shape, ty.Bounded)
    (id : PageId) (edits : List Edit)
    (hwidth : ∀ r, .insert r ∈ edits → r.width = r.schema.width) :
    (layout.stride ≤ Size.bufferLimit →
      ∃ bytes, (edited id schema layout edits).encodeBounded = .ok bytes ∧
        (edited id schema layout edits).Shows bytes ∧
        ∃ q, decodeBounded id schema layout bytes = .ok q ∧
          (edited id schema layout edits).Restores q ∧ q.encodeBounded = .ok bytes) ∧
    (Size.bufferLimit < layout.stride → (edited id schema layout edits).encodeBounded =
      .error (.violation (.sizeOutOfRange layout.stride))) := by
  obtain ⟨hexact, hid, hschema, hlayout⟩ := follows_edited id schema layout hwidth
  generalize edited id schema layout edits = p at hexact hid hschema hlayout ⊢
  obtain rfl : p.id = id := hid
  obtain rfl : p.schema = schema := hschema
  obtain rfl : p.layout = layout := hlayout
  refine ⟨fun hstride => ?_, encodeBounded_of_vast⟩
  obtain ⟨bytes, hbytes, hlength⟩ := hexact.toSound.exists_encode hsize
  have hlegible := hexact.toSound.legible hbounded
  refine ⟨bytes, ?_, hexact.shows hsize hbytes hlength, p.keep p.schema, ?_,
    hexact.toSound.restores_keep hvalid, ?_⟩
  · rw [encodeBounded_of_stride hvalid hsize hstride, hbytes]
    rfl
  · rw [decodeBounded_of_stride p.id bytes hvalid hsize hstride,
      hexact.toSound.decode_encode hsize hlegible hbytes rfl]
    rfl
  · rw [encodeBounded_of_stride (p := p.keep p.schema) hvalid hsize hstride, encode_keep, hbytes]
    rfl

/-- A schema with a column of integers and one of short texts. -/
def notes : Schema := ⟨[⟨.int, some "day"⟩, ⟨.text 2, some "note"⟩], by decide⟩

/-- Three slots, and two bytes that are not used. -/
def noteLayout : PageLayout := ⟨32, notes.byteSize, notes.byteSize_pos⟩

/-- Two rows, of which the first is deleted again, and one that cannot be stored. -/
def noteEdits : List Edit :=
  [.insert ⟨notes, [some (.int 7), some (.text "abc")], none⟩,
    .insert ⟨notes, [some (.int 9), some (.text "aé")], none⟩,
    .delete ⟨⟨⟨0⟩, 0⟩, 0⟩, .insert (.unset notes)]

/-- The row that is left is read from the slot behind the free one. -/
theorem decode_encode_edited_notes :
    ∃ bytes q, (edited ⟨⟨0⟩, 0⟩ notes noteLayout noteEdits).encodeBounded = .ok bytes ∧
      bytes.length = 36 ∧ decodeBounded ⟨⟨0⟩, 0⟩ notes noteLayout bytes = .ok q ∧
      q.row? 0 = none ∧ (q.row? 1).isSome = true := by
  have hbounded : ∀ ty ∈ notes.shape, ty.Bounded := by
    rintro ty hty capacity rfl
    obtain rfl : capacity = 2 := by simpa [notes, Schema.shape] using hty
    decide
  have hwidth : ∀ r, .insert r ∈ noteEdits → r.width = r.schema.width := by
    intro r hr
    simp only [noteEdits, List.mem_cons, Edit.insert.injEq, reduceCtorEq, List.not_mem_nil,
      or_false, false_or] at hr
    obtain rfl | rfl | rfl := hr <;> rfl
  have hvalid : noteLayout.Valid := by decide
  obtain ⟨bytes, hbytes, hshows, q, hdecode, hrestores, -⟩ :=
    (decode_encode_edited hvalid rfl hbounded ⟨⟨0⟩, 0⟩ noteEdits hwidth).1 (by decide)
  have hfree := hrestores.row 0
  have hused := hrestores.row 1
  refine ⟨bytes, q, hbytes, hshows.length_eq, hdecode, ?_, ?_⟩
  · cases hrow : q.row? 0 with
    | none => rfl
    | some row =>
      rw [hrow] at hfree
      cases hfree
  · cases hrow : q.row? 1 with
    | none =>
      rw [hrow] at hused
      cases hused
    | some row => rfl

/-- As many long texts as it takes for a page with no more slots than can be told apart to be larger
than a buffer. -/
def volumes : Schema where
  columns := List.replicate 65536 ⟨.text 2147483647, none⟩
  nonempty := mt (List.replicate_eq_nil_iff _).1 (by decide)

lemma shape_volumes : volumes.shape = List.replicate 65536 (.text 2147483647) := by
  rw [Schema.shape, volumes, List.map_replicate]

lemma byteSize_volumes : volumes.byteSize = 140737488551936 := by
  rw [Schema.byteSize, shape_volumes, ColumnType.totalWidth_replicate]
  rfl

/-- Slots for these texts. -/
def shelves : PageLayout := ⟨9223372036854775808, volumes.byteSize, volumes.byteSize_pos⟩

lemma pageSize_shelves : shelves.pageSize = 9223372036854775808 := rfl

lemma slots_shelves : shelves.slots = 65535 := by
  have hrow : shelves.rowSize = 140737488551936 := byteSize_volumes
  rw [PageLayout.slots, pageSize_shelves, hrow]

lemma stride_shelves : shelves.stride = 9223372036854784000 := by
  rw [PageLayout.stride, PageLayout.headerBytes, PageLayout.headerWords, slots_shelves,
    pageSize_shelves]
  rfl

lemma bounded_volumes : ∀ ty ∈ volumes.shape, ty.Bounded := by
  rw [shape_volumes]
  rintro ty hty capacity rfl
  cases List.eq_of_mem_replicate hty
  exact Nat.le_refl _

lemma valid_shelves : shelves.Valid := by
  rw [PageLayout.Valid, slots_shelves]
  decide

/-- An empty page is not written if it is larger than a buffer, although its layout is usable, its
size can be counted, and so can the length of every text. -/
theorem encodeBounded_volumes :
    shelves.Valid ∧ shelves.rowSize = volumes.byteSize ∧ (∀ ty ∈ volumes.shape, ty.Bounded) ∧
      shelves.stride ≤ Size.limit ∧ (edited ⟨⟨0⟩, 0⟩ volumes shelves []).encodeBounded =
        .error (.violation (.sizeOutOfRange 9223372036854784000)) := by
  refine ⟨valid_shelves, rfl, bounded_volumes, ?_, ?_⟩
  · rw [stride_shelves]
    decide
  · rw [← stride_shelves]
    refine encodeBounded_of_vast (p := edited ⟨⟨0⟩, 0⟩ volumes shelves []) ?_
    show Size.bufferLimit < shelves.stride
    rw [stride_shelves]
    decide

end Page

end RowStore
