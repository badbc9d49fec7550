import RowStore.Proofs.Page.Reencoding

/-!
# The slots in use

A page says twice which of its slots are in use: by the bits of its bitmap, and by the rows in its
slots.  Storing and deleting change both, and the bits of a page that was read come from elsewhere,
as do those that belong to no slot.  Still the two never disagree about a slot, on any page that was
begun empty or read from any bytes whatever and then edited (`Page.edits_occupied`), and no row is
ever stored in a slot whose number does not fit into a record id.

All that an edit can do is to put an entry into a slot (`Page.Puts`).  This keeps pages sound
(`Sound.foldl_edit`), and what is promised of a single edit holds on every sound page
(`Sound.stores`, `Sound.deletes`).
-/

namespace RowStore.Page

variable {p p' : Page} {slot : ℕ} {r : Row}

/-! ## Pages that were read -/

lemma decodeRow_recordId {image : Bytes} (h : p.decodeRow slot image = .ok r) :
    r.recordId = some (p.recordIdOf slot) := by
  rw [decodeRow] at h
  split at h <;> cases h
  rfl

lemma stored_of_decodeRow {image : Bytes} (h : p.decodeRow slot image = .ok r) :
    r.Storable p.schema ∧ r.recordId = some (p.recordIdOf slot) := by
  obtain ⟨hschema, hmatches⟩ := decodeRow_fits h
  exact ⟨⟨by rw [hschema], hmatches⟩, decodeRow_recordId h⟩

lemma isSome_of_decodeEntry {image : Bytes} {entry : Option Row}
    (h : p.decodeEntry image slot = .ok entry) : entry.isSome = p.isUsed slot := by
  rw [decodeEntry] at h
  split at h
  · next hused =>
    rcases hrow : p.decodeRow slot image with e | r <;> rw [hrow] at h <;> cases h
    exact hused.symm
  · next hfree =>
    cases h
    exact (Bool.eq_false_iff.2 hfree).symm

lemma stored_of_decodeEntry {image : Bytes} (h : p.decodeEntry image slot = .ok (some r)) :
    r.Storable p.schema ∧ r.recordId = some (p.recordIdOf slot) := by
  rw [decodeEntry] at h
  split at h
  · rcases hrow : p.decodeRow slot image with e | r' <;> rw [hrow] at h <;> cases h
    exact stored_of_decodeRow hrow
  · cases h

/-- Whatever is read as a page is a sound one. -/
lemma Sound.of_decode {id : PageId} {schema : Schema} {layout : PageLayout} {data : Bytes}
    (h : decode id schema layout data = .ok p) : p.Sound := by
  obtain ⟨entries, hentries, rfl⟩ := exists_entries_of_decode h
  have hlength : entries.length = layout.slots := by
    rw [length_of_mapM_eq_ok hentries, List.length_zipIdx, Bytes.length_pieces]
  have hentry : ∀ (slot : ℕ) (hslot : slot < entries.length), ∃ image,
      (marked id schema layout (decodeBitmap layout data)).decodeEntry image slot =
        .ok entries[slot] := by
    intro slot hslot
    have hslot' := length_of_mapM_eq_ok hentries ▸ hslot
    have hget := getElem_of_mapM_eq_ok hentries slot hslot' hslot
    rw [List.getElem_zipIdx, Nat.zero_add] at hget
    exact ⟨_, hget⟩
  refine ⟨hlength, ?_, fun slot => ?_, fun slot r hr => ?_⟩
  · show (decodeBitmap layout data).size = layout.headerWords
    rw [decodeBitmap, List.size_toArray, List.length_map, Bytes.length_pieces]
  · rcases Nat.lt_or_ge slot entries.length with hslot | hslot
    · obtain ⟨image, himage⟩ := hentry slot hslot
      rw [row?_eq_getElem hslot]
      exact (isSome_of_decodeEntry himage).symm
    · rw [row?_eq_none hslot, isUsed_eq_bitAt,
        decide_eq_false (Nat.not_lt.2 (hlength ▸ hslot)), Bool.false_and]
      rfl
  · rcases Nat.lt_or_ge slot entries.length with hslot | hslot
    · obtain ⟨image, himage⟩ := hentry slot hslot
      rw [row?_eq_getElem hslot] at hr
      exact stored_of_decodeEntry (himage.trans (congrArg Except.ok hr))
    · rw [row?_eq_none hslot] at hr
      cases hr

/-! ## Free slots -/

/-- The slots without a row, from the lowest on. -/
def freeSlots (p : Page) : List ℕ :=
  (List.range p.layout.slots).filter fun slot => (p.row? slot).isNone

lemma mem_freeSlots : slot ∈ p.freeSlots ↔ slot < p.layout.slots ∧ p.row? slot = none := by
  rw [freeSlots, List.mem_filter, List.mem_range, Option.isNone_iff_eq_none]

/-- The record id of a slot names this slot. -/
lemma toNat_recordIdOf (hvalid : p.layout.Valid) (hslot : slot < p.layout.slots) :
    (p.recordIdOf slot).slot.toNat = slot :=
  UInt16.toNat_ofNat_of_lt' (Nat.lt_of_lt_of_le hslot hvalid.2)

namespace Sound

lemma map_row?_range (hp : p.Sound) : (List.range p.layout.slots).map p.row? = p.entries := by
  refine List.ext_getElem ?_ fun slot h h' => ?_
  · rw [List.length_map, List.length_range, hp.length_entries]
  · rw [List.getElem_map, List.getElem_range, row?_eq_getElem h']

lemma rowCount_add_length_freeSlots (hp : p.Sound) :
    p.rowCount + p.freeSlots.length = p.layout.slots := by
  have hfree : p.freeSlots.length = p.entries.countP Option.isNone := by
    rw [freeSlots, ← List.countP_eq_length_filter, ← hp.map_row?_range, List.countP_map]
    rfl
  rw [hfree, rowCount, ← hp.length_entries,
    List.length_eq_countP_add_countP Option.isSome]
  congr 2
  funext entry
  cases entry <;> rfl

lemma freeSlot?_eq_head? (hp : p.Sound) : p.freeSlot? = p.freeSlots.head? := by
  rw [freeSlot?, freeSlots, List.head?_filter]
  congr 1
  funext slot
  rw [hp.isUsed_eq]
  cases p.row? slot <;> rfl

lemma insert_eq_head (hp : p.Sound) (hcheck : p.check r = .ok ()) {rest : List ℕ}
    (hfree : p.freeSlots = slot :: rest) :
    p.insert r = .ok (p.recordIdOf slot,
      p.setSlot slot (some { r with recordId := some (p.recordIdOf slot) })) := by
  refine insert_eq_ok hcheck ?_
  rw [hp.freeSlot?_eq_head?, hfree, List.head?_cons]

lemma insert_eq_full (hp : p.Sound) (hcheck : p.check r = .ok ()) (hfree : p.freeSlots = []) :
    p.insert r = .error (.pageFull p.id) := by
  have hslot : p.freeSlot? = none := by rw [hp.freeSlot?_eq_head?, hfree, List.head?_nil]
  simp only [insert, hcheck, hslot]
  rfl

end Sound

/-! ## Edits -/

/-- A page has another entry in one slot, and is the same in all others. -/
structure Puts (p : Page) (slot : ℕ) (entry : Option Row) (p' : Page) : Prop where
  id_eq : p'.id = p.id
  schema_eq : p'.schema = p.schema
  layout_eq : p'.layout = p.layout
  size_bitmap : p'.bitmap.size = p.bitmap.size
  row?_eq : ∀ j, p'.row? j = if j = slot then entry else p.row? j
  /-- This is about all bits, also those that belong to no slot. -/
  bitAt_eq : ∀ j, p'.bitAt j = if j = slot then entry.isSome else p.bitAt j

/-- What is promised of storing a row. -/
structure Stores (p : Page) (r : Row) : Prop where
  /-- The row is stored in the lowest free slot. -/
  stored : r.Storable p.schema → ∀ slot rest, p.freeSlots = slot :: rest →
    ∃ id p', p.insert r = .ok (id, p') ∧ id.page = p.id ∧ id.slot.toNat = slot ∧
      p.Puts slot (some { r with recordId := some id }) p'
  full : r.Storable p.schema → (p.insert r = .error (.pageFull p.id) ↔ p.freeSlots = [])
  refused : ¬ r.Storable p.schema →
    ∃ expected actual, p.insert r = .error (.typeMismatch expected actual)
  unchanged : ∀ e, p.insert r = .error e → p.edit (.insert r) = p

/-- What is promised of deleting a record. -/
structure Deletes (p : Page) (id : RecordId) : Prop where
  freed : id.page = p.id → ∀ r, p.row? id.slot.toNat = some r →
    ∃ p', p.delete id = .ok p' ∧ p.Puts id.slot.toNat none p'
  missing : p.delete id = .error (.recordNotFound id) ↔
    id.page ≠ p.id ∨ p.layout.slots ≤ id.slot.toNat ∨ p.row? id.slot.toNat = none
  unchanged : ∀ e, p.delete id = .error e → e = .recordNotFound id ∧ p.edit (.delete id) = p

namespace Sound

lemma puts_setSlot (hp : p.Sound) (hslot : slot < p.layout.slots) (entry : Option Row) :
    p.Puts slot entry (p.setSlot slot entry) where
  id_eq := rfl
  schema_eq := rfl
  layout_eq := rfl
  size_bitmap := Array.size_modify
  row?_eq := row?_setSlot (hp.length_entries ▸ hslot) entry
  bitAt_eq := bitAt_setSlot hp.size_bitmap hslot entry

lemma stores (hp : p.Sound) (hvalid : p.layout.Valid) (hwidth : r.width = r.schema.width) :
    p.Stores r where
  stored hr slot rest hfree := by
    have hslot : slot < p.layout.slots :=
      (mem_freeSlots.1 (hfree ▸ List.mem_cons_self : slot ∈ p.freeSlots)).1
    exact ⟨_, _, hp.insert_eq_head ((check_eq_ok_iff hwidth).2 hr) hfree, rfl,
      toNat_recordIdOf hvalid hslot, hp.puts_setSlot hslot _⟩
  full hr := by
    have hcheck : p.check r = .ok () := (check_eq_ok_iff hwidth).2 hr
    rcases hfree : p.freeSlots with _ | ⟨slot, rest⟩
    · exact ⟨fun _ => rfl, fun _ => hp.insert_eq_full hcheck hfree⟩
    · rw [hp.insert_eq_head hcheck hfree]
      exact ⟨fun h => (by cases h), fun h => (by cases h)⟩
  refused hr := by
    rcases hcheck : p.check r with e | _
    · obtain ⟨expected, actual, rfl⟩ := check_eq_error hcheck
      exact ⟨expected, actual, insert_eq_error hcheck⟩
    · exact absurd ((check_eq_ok_iff hwidth).1 hcheck) hr
  unchanged e he := by rw [edit, he]

lemma deletes (hp : p.Sound) (id : RecordId) : p.Deletes id where
  freed hpage r hr := by
    have hslot := hp.lt_slots hr
    have hused : p.isUsed id.slot.toNat = true := by rw [hp.isUsed_eq, hr, Option.isSome_some]
    exact ⟨_, if_pos ⟨hpage, hused⟩, hp.puts_setSlot hslot none⟩
  missing := by
    rw [delete, hp.isUsed_eq]
    split
    · next h =>
      refine ⟨fun h => (by cases h), fun h' => ?_⟩
      obtain ⟨r, hr⟩ := Option.isSome_iff_exists.1 h.2
      rcases h' with hpage | hslot | hnone
      · exact absurd h.1 hpage
      · exact absurd (hp.lt_slots hr) (Nat.not_lt.2 hslot)
      · rw [hnone] at hr
        cases hr
    · next h =>
      refine ⟨fun _ => ?_, fun _ => rfl⟩
      rw [not_and_or, Option.not_isSome_iff_eq_none] at h
      exact h.imp_right .inr
  unchanged e he := by
    refine ⟨?_, by rw [edit, he]⟩
    rw [delete] at he
    split at he <;> cases he
    rfl

/-- Edits keep pages sound, and leave their identity and their geometry alone. -/
lemma foldl_edit (hp : p.Sound) {edits : List Edit}
    (hwidth : ∀ r, .insert r ∈ edits → r.width = r.schema.width) :
    (edits.foldl Page.edit p).Sound ∧ (edits.foldl Page.edit p).id = p.id ∧
      (edits.foldl Page.edit p).schema = p.schema ∧
      (edits.foldl Page.edit p).layout = p.layout :=
  foldl_edit_induction (P := fun q =>
      q.Sound ∧ q.id = p.id ∧ q.schema = p.schema ∧ q.layout = p.layout)
    ⟨hp, rfl, rfl, rfl⟩ (fun entry hq hslot hentry =>
      ⟨hq.1.setSlot hslot entry hentry, hq.2⟩) hwidth

end Sound

/-! ## Pages of any origin -/

/-- A page that is empty or was read. -/
inductive Begun (id : PageId) (schema : Schema) (layout : PageLayout) : Page → Prop
  | empty : Begun id schema layout (empty id schema layout)
  | read {data : Bytes} {p : Page} (h : decode id schema layout data = .ok p) :
    Begun id schema layout p

lemma Begun.sound {id : PageId} {schema : Schema} {layout : PageLayout}
    (hp : Begun id schema layout p) :
    p.Sound ∧ p.id = id ∧ p.schema = schema ∧ p.layout = layout := by
  cases hp with
  | empty => exact ⟨.empty id schema layout, rfl, rfl, rfl⟩
  | read h =>
    refine ⟨.of_decode h, ?_⟩
    obtain ⟨entries, -, rfl⟩ := exists_entries_of_decode h
    exact ⟨rfl, rfl, rfl⟩

/-- The bits and the rows of a page tell the same about its slots, and the rows fit the page and
know their places. -/
structure Occupied (p : Page) : Prop where
  bitAt_eq : ∀ slot < p.layout.slots, p.bitAt slot = (p.row? slot).isSome
  row : ∀ slot r, p.row? slot = some r → slot < p.layout.slots ∧ r.Storable p.schema ∧
    ∃ id, r.recordId = some id ∧ id.page = p.id ∧ id.slot.toNat = slot
  freeCount_eq : p.freeCount = p.freeSlots.length
  rowCount_add_freeCount : p.rowCount + p.freeCount = p.layout.slots

lemma Sound.occupied (hp : p.Sound) (hvalid : p.layout.Valid) : p.Occupied := by
  have hcount := hp.rowCount_add_length_freeSlots
  have hfree : p.freeCount = p.freeSlots.length := by
    rw [freeCount]
    omega
  refine ⟨fun slot hslot => ?_, fun slot r hr => ?_, hfree, by rw [hfree, hcount]⟩
  · rw [← hp.isUsed_eq, isUsed_eq_bitAt, decide_eq_true hslot, Bool.true_and]
  · obtain ⟨hstorable, hrecord⟩ := hp.stored slot r hr
    have hslot := hp.lt_slots hr
    exact ⟨hslot, hstorable, _, hrecord, rfl, toNat_recordIdOf hvalid hslot⟩

/-- **The bits and the rows of a page agree, whatever is stored and deleted.**  Under a usable
layout, on a page that was begun empty or read from any bytes and then edited in any way: a slot has
its bit exactly if it holds a row; the row fits the schema and knows the slot; the used and the free
slots add up; a row that fits is stored in the lowest free slot, and in no other way is the page
changed by this; there is no room for it exactly if no slot is free; deleting frees the slot that is
named, and no other, unless there is no row or it is on another page; and what is refused leaves the
page as it is. -/
theorem edits_occupied {id : PageId} {schema : Schema} {layout : PageLayout}
    (hvalid : layout.Valid) (hp : Begun id schema layout p) (edits : List Edit)
    (hwidth : ∀ r, .insert r ∈ edits → r.width = r.schema.width) :
    (edits.foldl edit p).id = id ∧ (edits.foldl edit p).schema = schema ∧
      (edits.foldl edit p).layout = layout ∧ (edits.foldl edit p).Occupied ∧
      (∀ r, r.width = r.schema.width → (edits.foldl edit p).Stores r) ∧
      ∀ place, (edits.foldl edit p).Deletes place := by
  obtain ⟨hbegun, rfl, rfl, rfl⟩ := hp.sound
  obtain ⟨hsound, hid, hschema, hlayout⟩ := hbegun.foldl_edit hwidth
  have hvalid' : (edits.foldl edit p).layout.Valid := hlayout.symm ▸ hvalid
  exact ⟨hid, hschema, hlayout, hsound.occupied hvalid',
    fun r hr => hsound.stores hvalid' hr, hsound.deletes⟩

/-- The first row gives way to another. -/
def noteRevisions : List Edit :=
  [.delete ⟨⟨⟨0⟩, 0⟩, 0⟩, .insert ⟨notes, [some (.int 9), some (.text "aé")], none⟩]

/-- The page that is read has bits of no slot. -/
theorem edits_occupied_foreignNotes :
    noteLayout.Valid ∧ (∀ r, .insert r ∈ noteRevisions → r.width = r.schema.width) ∧
      ∃ p, decode ⟨⟨0⟩, 0⟩ notes noteLayout foreignNotes = .ok p ∧
        (noteRevisions.foldl edit p).Occupied ∧
        ∀ place, (noteRevisions.foldl edit p).Deletes place := by
  have hvalid : noteLayout.Valid := by decide
  have hwidth : ∀ r, .insert r ∈ noteRevisions → r.width = r.schema.width := by
    intro r hr
    obtain rfl : r = _ := by simpa [noteRevisions] using hr
    rfl
  have hsize : noteLayout.rowSize = notes.byteSize := rfl
  obtain ⟨p, hdecode⟩ := exists_decode_of_size hsize ⟨⟨0⟩, 0⟩ foreignNotes
  obtain ⟨-, -, -, hoccupied, -, hdeletes⟩ :=
    edits_occupied hvalid (.read hdecode) noteRevisions hwidth
  exact ⟨hvalid, hwidth, p, hdecode, hoccupied, hdeletes⟩

end RowStore.Page
