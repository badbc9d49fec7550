import RowStore.Proofs.Page.Slots

/-!
# Pages survive their stored form

A sound page is written on exactly the bytes of a page (`Page.Sound.exists_encode`), and reading
them gives the page back, with what its columns keep of the values (`Page.Sound.decode_encode`).
The names of the columns do not matter for this, so the page may be read with another schema of the
same shape.

The images of the slots have one size, so the pieces of the stored form are the images again
(`Bytes.pieces_flatten`), and the words of the bitmap are read as they were written.
-/

namespace RowStore

/-- A word is made of the first four bytes. -/
lemma Word.read_take (bs : Bytes) : Word.read (bs.take 4) = Word.read bs := by
  have hrest : 4 - min 4 bs.length = 4 - bs.length := by omega
  rw [Word.read, Word.read, Bytes.fit_eq, Bytes.fit_eq, List.take_take, Nat.min_self,
    List.length_take, hrest]

lemma Word.read_take_of_le {room : ℕ} (h : 4 ≤ room) (bs : Bytes) :
    Word.read (bs.take room) = Word.read bs := by
  rw [← Word.read_take, List.take_take, Nat.min_eq_left h, Word.read_take]

/-- What a table of the schema keeps of a row. -/
def Row.keep (schema : Schema) (r : Row) : Row where
  schema := schema
  fields := List.zipWith (fun ty field => field.map ty.keep) schema.shape r.fields
  recordId := r.recordId

/-- What is handed out for a row that was stored: the same numbers, the texts cut to their
columns. -/
structure Row.Keeps (schema : Schema) (r row : Row) : Prop where
  schema_eq : row.schema = schema
  width_eq : row.width = schema.width
  fields : ∀ (i : ℕ) (ty : ColumnType), schema.shape[i]? = some ty → ∃ v v',
    r.fields[i]? = some (some v) ∧ row.fields[i]? = some (some v') ∧ ty.Keeps v v'

lemma Row.Storable.keeps {schema : Schema} {r : Row} (h : r.Storable schema) {row : Row}
    (hrow : r.fields = row.fields) : Row.Keeps schema r (row.keep schema) where
  schema_eq := rfl
  width_eq := by
    have hlength := h.2.length_eq
    rw [hrow] at hlength
    rw [Row.width, Row.keep, List.length_zipWith, ← hlength, Nat.min_self, Schema.length_shape]
  fields i ty hty := by
    obtain ⟨hi, rfl⟩ := List.getElem?_eq_some_iff.1 hty
    have hi' : i < r.fields.length := h.2.length_eq ▸ hi
    obtain ⟨v, hv, hfits⟩ := (List.forall₂_iff_get.1 h.2).2 i hi hi'
    have hfield : r.fields[i]? = some (some v) := by
      rw [List.getElem?_eq_getElem hi', ← hv]
      rfl
    refine ⟨v, schema.shape[i].keep v, hfield, ?_, ColumnType.keeps_keep hfits⟩
    rw [hrow] at hfield
    rw [Row.keep, List.getElem?_zipWith, hty, hfield]
    rfl

namespace Page

/-! ## Rows -/

variable {types : List ColumnType} {fields : List (Option Value)} {bytes : Bytes}

lemma encodeFields_cons_eq_ok_iff {ty : ColumnType} {v : Value} :
    encodeFields (ty :: types) (some v :: fields) = .ok bytes ↔ ∃ first rest,
      v.write ty = .ok first ∧ encodeFields types fields = .ok rest ∧ bytes = first ++ rest := by
  rw [encodeFields]
  rcases v.write ty with e | first
  · exact ⟨fun h => (by cases h), fun ⟨_, _, h, _⟩ => (by cases h)⟩
  · rcases encodeFields types fields with e | rest
    · exact ⟨fun h => (by cases h), fun ⟨_, _, _, h, _⟩ => (by cases h)⟩
    · constructor
      · intro h
        cases h
        exact ⟨first, rest, rfl, rfl, rfl⟩
      · rintro ⟨_, _, h, h', rfl⟩
        cases h
        cases h'
        rfl

lemma exists_encodeFields (h : List.Forall₂ ColumnType.Takes types fields) :
    ∃ bytes, encodeFields types fields = .ok bytes := by
  induction h with
  | nil => exact ⟨[], rfl⟩
  | cons hfield hfields ih =>
    obtain ⟨v, rfl, hfits⟩ := hfield
    obtain ⟨first, hfirst⟩ := Value.exists_write hfits
    obtain ⟨rest, hrest⟩ := ih
    exact ⟨first ++ rest, encodeFields_cons_eq_ok_iff.2 ⟨first, rest, hfirst, hrest, rfl⟩⟩

lemma length_of_encodeFields (h : List.Forall₂ ColumnType.Takes types fields)
    (hbytes : encodeFields types fields = .ok bytes) :
    bytes.length = ColumnType.totalWidth types := by
  induction h generalizing bytes with
  | nil =>
    cases hbytes
    rfl
  | cons hfield hfields ih =>
    obtain ⟨v, rfl, -⟩ := hfield
    obtain ⟨first, rest, hfirst, hrest, rfl⟩ := encodeFields_cons_eq_ok_iff.1 hbytes
    rw [List.length_append, Value.length_of_write hfirst, ih hrest, ColumnType.totalWidth]

lemma readRow_of_encodeFields (h : List.Forall₂ ColumnType.Stores types fields)
    (hbytes : encodeFields types fields = .ok bytes) :
    ∃ values, Value.readRow types (ColumnType.totalWidth types) bytes = .ok values ∧
      values.map some = List.zipWith (fun ty field => field.map ty.keep) types fields := by
  induction h generalizing bytes with
  | nil => exact ⟨[], rfl, rfl⟩
  | @cons ty field types fields hfield hfields ih =>
    obtain ⟨v, rfl, -, hlegible⟩ := hfield
    obtain ⟨first, rest, hfirst, hrest, rfl⟩ := encodeFields_cons_eq_ok_iff.1 hbytes
    obtain ⟨values, hread, hvalues⟩ := ih hrest
    have hroom : ¬ ty.width + ColumnType.totalWidth types < ty.width := by omega
    have hfield := Value.readField_of_write hfirst hlegible rest
    refine ⟨ty.keep v :: values, ?_, ?_⟩
    · rw [Value.readRow, ColumnType.totalWidth, if_neg hroom, Nat.add_sub_cancel_left, hfield,
        List.drop_left' (Value.length_of_write hfirst), hread]
      rfl
    · rw [List.map_cons, List.zipWith_cons_cons, hvalues]
      rfl

/-- What is kept of fields is written as the fields are. -/
lemma encodeFields_keep (types : List ColumnType) (fields : List (Option Value)) :
    encodeFields types (List.zipWith (fun ty field => field.map ty.keep) types fields) =
      encodeFields types fields := by
  induction types generalizing fields with
  | nil => rfl
  | cons ty types ih =>
    rcases fields with _ | ⟨_ | v, fields⟩
    · rfl
    · rfl
    · simp only [List.zipWith_cons_cons, Option.map_some, encodeFields, Value.write_keep, ih]

/-! ## Pages -/

variable {p : Page}

/-- The fields of the page can be read back. -/
def Legible (p : Page) : Prop :=
  ∀ slot r, p.row? slot = some r → List.Forall₂ ColumnType.Stores p.schema.shape r.fields

lemma Sound.legible (hp : p.Sound) (hbounded : ∀ ty ∈ p.schema.shape, ty.Bounded) : p.Legible := by
  intro slot r hr
  have hfields := (hp.stored slot r hr).1.2
  rw [List.forall₂_iff_zip] at hfields ⊢
  refine ⟨hfields.1, fun {ty field} hmem => ?_⟩
  obtain ⟨v, hv, hfits⟩ := hfields.2 hmem
  exact ⟨v, hv, hfits, (hbounded ty (List.of_mem_zip hmem).1).legible hfits⟩

lemma Sound.encodeEntry_of_mem (hp : p.Sound) (hsize : p.layout.rowSize = p.schema.byteSize)
    {entry : Option Row} (h : entry ∈ p.entries) :
    ∃ image, p.encodeEntry entry = .ok image ∧ image.length = p.layout.rowSize := by
  rcases entry with _ | row
  · exact ⟨_, rfl, List.length_replicate⟩
  · obtain ⟨slot, hslot⟩ := exists_row?_of_mem ((mem_rows_iff p row).2 h)
    have hfields := (hp.stored slot row hslot).1.2
    obtain ⟨image, himage⟩ := exists_encodeFields hfields
    exact ⟨image, himage, by rw [length_of_encodeFields hfields himage, hsize, Schema.byteSize]⟩

/-- The images of the slots. -/
lemma Sound.exists_images (hp : p.Sound) (hsize : p.layout.rowSize = p.schema.byteSize) :
    ∃ images, p.entries.mapM p.encodeEntry = .ok images ∧
      ∀ image ∈ images, image.length = p.layout.rowSize := by
  obtain ⟨images, himages, hlengths⟩ := exists_mapM_eq_ok (l := p.entries) (f := p.encodeEntry)
    (P := fun _ image => image.length = p.layout.rowSize) fun _ hi =>
      hp.encodeEntry_of_mem hsize (List.getElem_mem hi)
  refine ⟨images, himages, fun image himage => ?_⟩
  obtain ⟨i, hi, rfl⟩ := List.getElem_of_mem himage
  exact hlengths i hi

lemma encode_eq_ok_iff : p.encode = .ok bytes ↔ ∃ images,
    p.entries.mapM p.encodeEntry = .ok images ∧
      bytes = p.bitmap.toList.flatMap Word.bytes ++ images.flatten ++
        List.replicate (p.layout.pageSize - p.layout.slots * p.layout.rowSize) 0 := by
  rw [encode]
  rcases p.entries.mapM p.encodeEntry with e | images
  · exact ⟨fun h => (by cases h), fun ⟨_, h, _⟩ => (by cases h)⟩
  · constructor
    · intro h
      cases h
      exact ⟨images, rfl, rfl⟩
    · rintro ⟨_, h, rfl⟩
      cases h
      rfl

lemma length_of_mem_words {words : List UInt32} {image : Bytes}
    (h : image ∈ words.map Word.bytes) : image.length = PageLayout.wordBytes := by
  obtain ⟨w, -, rfl⟩ := List.mem_map.1 h
  exact Word.length_bytes w

lemma Sound.length_bitmapBytes (hp : p.Sound) :
    (p.bitmap.toList.flatMap Word.bytes).length = p.layout.headerBytes := by
  rw [List.flatMap_def, Bytes.length_flatten fun image => length_of_mem_words, List.length_map,
    Array.length_toList, hp.size_bitmap, PageLayout.headerBytes]

/-- A sound page can be written, and its bytes are as many as the layout says. -/
lemma Sound.exists_encode (hp : p.Sound) (hsize : p.layout.rowSize = p.schema.byteSize) :
    ∃ bytes, p.encode = .ok bytes ∧ bytes.length = p.layout.stride := by
  obtain ⟨images, himages, hlengths⟩ := hp.exists_images hsize
  refine ⟨_, encode_eq_ok_iff.2 ⟨images, himages, rfl⟩, ?_⟩
  have hfill : p.layout.slots * p.layout.rowSize ≤ p.layout.pageSize :=
    Nat.div_mul_le_self p.layout.pageSize p.layout.rowSize
  rw [List.length_append, List.length_append, List.length_replicate, hp.length_bitmapBytes,
    Bytes.length_flatten hlengths, length_of_mapM_eq_ok himages, hp.length_entries,
    PageLayout.stride]
  omega

/-- What a table of the schema keeps of a page. -/
def keep (schema : Schema) (p : Page) : Page :=
  { p with schema := schema, entries := p.entries.map (Option.map (Row.keep schema)) }

lemma rows_keep (schema : Schema) (p : Page) :
    (p.keep schema).rows = p.rows.map (Row.keep schema) := by
  simp only [rows, keep]
  generalize p.entries = entries
  induction entries with
  | nil => rfl
  | cons entry entries ih =>
    rcases entry with _ | row
    · exact ih
    · exact congrArg (Row.keep schema row :: ·) ih

/-- The page that is read before any of its slots is. -/
abbrev marked (id : PageId) (schema : Schema) (layout : PageLayout) (bitmap : Array UInt32) :
    Page :=
  { empty id schema layout with bitmap := bitmap }

lemma decode_eq_ok {id : PageId} {schema : Schema} {layout : PageLayout} {data : Bytes}
    {entries : List (Option Row)}
    (h : (Bytes.pieces layout.rowSize layout.slots (data.drop layout.headerBytes)).zipIdx.mapM
      (fun x => (marked id schema layout (decodeBitmap layout data)).decodeEntry x.1 x.2) =
        .ok entries) :
    decode id schema layout data =
      .ok { marked id schema layout (decodeBitmap layout data) with entries := entries } := by
  simp only [decode, h]
  rfl

lemma decodeRow_eq_ok {slot : ℕ} {image : Bytes} {values : List Value}
    (h : Value.readRow p.schema.shape p.layout.rowSize image = .ok values) :
    p.decodeRow slot image = .ok ⟨p.schema, values.map some, some (p.recordIdOf slot)⟩ := by
  rw [decodeRow, h]

/-- The entry of a slot is read as what is kept of it. -/
lemma Sound.decodeEntry_of_encodeEntry (hp : p.Sound) (hsize : p.layout.rowSize = p.schema.byteSize)
    (hlegible : p.Legible) {schema : Schema}
    (hshape : schema.shape = p.schema.shape) {slot : ℕ} (hslot : slot < p.entries.length)
    {image : Bytes} (himage : p.encodeEntry p.entries[slot] = .ok image) :
    (marked p.id schema p.layout p.bitmap).decodeEntry image slot =
      .ok (p.entries[slot].map (Row.keep schema)) := by
  have hused : (marked p.id schema p.layout p.bitmap).isUsed slot = p.entries[slot].isSome := by
    rw [← row?_eq_getElem hslot, ← hp.isUsed_eq]
    rfl
  have hstored : ∀ row, p.entries[slot] = some row →
      List.Forall₂ ColumnType.Stores p.schema.shape row.fields ∧
        row.recordId = some (p.recordIdOf slot) := by
    intro row hrow
    have hrow' := (row?_eq_getElem hslot).trans hrow
    exact ⟨hlegible slot row hrow', (hp.stored slot row hrow').2⟩
  rw [decodeEntry, hused]
  generalize p.entries[slot] = entry at himage hstored
  rcases entry with _ | row
  · rfl
  · obtain ⟨hfields, hid⟩ := hstored row rfl
    obtain ⟨values, hread, hvalues⟩ := readRow_of_encodeFields hfields himage
    have hread' : Value.readRow schema.shape p.layout.rowSize image = .ok values := by
      rw [hshape, hsize, Schema.byteSize, hread]
    have hdecode : (marked p.id schema p.layout p.bitmap).decodeRow slot image =
        .ok ⟨schema, values.map some, some (p.recordIdOf slot)⟩ := decodeRow_eq_ok hread'
    rw [Option.isSome_some, if_pos rfl, hdecode, hvalues, ← hid, ← hshape]
    rfl

lemma getElem?_decodeBitmap (layout : PageLayout) (bytes : Bytes) {word : ℕ}
    (hword : word < layout.headerWords) :
    (decodeBitmap layout bytes)[word]? = some (Word.read (bytes.drop (4 * word))) := by
  rw [decodeBitmap, List.getElem?_toArray, List.getElem?_map, Bytes.getElem?_pieces hword,
    Option.map_some, Nat.mul_comm word]
  exact congrArg some (Word.read_take _)

/-- The words of the bitmap stand at the beginning of the bytes. -/
lemma Sound.decodeBitmap_of_encode (hp : p.Sound) {bytes : Bytes} (hbytes : p.encode = .ok bytes) :
    decodeBitmap p.layout bytes = p.bitmap := by
  obtain ⟨images, himages, rfl⟩ := encode_eq_ok_iff.1 hbytes
  have hwords : p.layout.headerWords = (p.bitmap.toList.map Word.bytes).length := by
    rw [List.length_map, Array.length_toList, hp.size_bitmap]
  have hread : Word.read ∘ Word.bytes = fun w => w := funext Word.read_bytes
  rw [List.append_assoc, decodeBitmap, List.flatMap_def, hwords,
    Bytes.pieces_flatten (fun image => length_of_mem_words), List.map_map, hread, List.map_id',
    Array.toArray_toList]

/-- The images of the slots stand behind the bitmap. -/
lemma Sound.pieces_of_encode (hp : p.Sound) (hsize : p.layout.rowSize = p.schema.byteSize)
    {bytes : Bytes} (hbytes : p.encode = .ok bytes) {images : List Bytes}
    (himages : p.entries.mapM p.encodeEntry = .ok images) :
    Bytes.pieces p.layout.rowSize p.layout.slots (bytes.drop p.layout.headerBytes) = images := by
  obtain ⟨images', himages', rfl⟩ := encode_eq_ok_iff.1 hbytes
  obtain ⟨images'', himages'', hlengths⟩ := hp.exists_images hsize
  obtain rfl := Except.ok.inj (himages'.symm.trans himages)
  obtain rfl := Except.ok.inj (himages''.symm.trans himages)
  rw [List.append_assoc, List.drop_left' hp.length_bitmapBytes, ← hp.length_entries,
    ← length_of_mapM_eq_ok himages, Bytes.pieces_flatten hlengths]

/-- **Reading the bytes of a sound page gives the page back**, with what its columns keep of the
values, under any schema of its shape. -/
theorem Sound.decode_encode (hp : p.Sound) (hsize : p.layout.rowSize = p.schema.byteSize)
    (hlegible : p.Legible) {bytes : Bytes} (hbytes : p.encode = .ok bytes)
    {schema : Schema} (hshape : schema.shape = p.schema.shape) :
    decode p.id schema p.layout bytes = .ok (p.keep schema) := by
  obtain ⟨images, himages, -⟩ := encode_eq_ok_iff.1 hbytes
  have hbitmap := hp.decodeBitmap_of_encode hbytes
  have hpieces := hp.pieces_of_encode hsize hbytes himages
  have hcount : images.length = p.layout.slots := by
    rw [length_of_mapM_eq_ok himages, hp.length_entries]
  have hentries : images.zipIdx.mapM
      (fun x => (marked p.id schema p.layout p.bitmap).decodeEntry x.1 x.2) =
        .ok (p.entries.map (Option.map (Row.keep schema))) := by
    rw [mapM_eq_ok_iff, List.forall₂_iff_get]
    refine ⟨by rw [List.length_zipIdx, List.length_map, hcount, hp.length_entries], ?_⟩
    intro slot hslot hslot'
    have hentry : slot < p.entries.length := by rwa [List.length_map] at hslot'
    have himage : slot < images.length := by rwa [List.length_zipIdx] at hslot
    have hencode := getElem_of_mapM_eq_ok himages slot hentry himage
    simp only [List.get_eq_getElem, List.getElem_zipIdx, List.getElem_map, Nat.zero_add]
    exact hp.decodeEntry_of_encodeEntry hsize hlegible hshape hentry hencode
  have hdecode : decode p.id schema p.layout bytes =
      .ok { marked p.id schema p.layout (decodeBitmap p.layout bytes) with
        entries := p.entries.map (Option.map (Row.keep schema)) } := by
    apply decode_eq_ok
    rw [hbitmap, hpieces]
    exact hentries
  rw [hdecode, hbitmap]
  rfl

end Page

end RowStore
