import Mathlib.Data.List.Forall2
import RowStore.Proofs.Page.Decoding
import RowStore.Proofs.Value.Codec

/-!
# The slots of a page

On a page that was made by storing and deleting rows, a slot is marked exactly if it holds a row,
the row fits the schema of the page, and it knows where it is stored (`Page.Sound`).  If it was
never read, the bits of the bitmap that belong to no slot are clear as well (`Page.Exact`).

A page on which nothing was deleted is also *packed* (`Page.Packed`): its rows are in the lowest
slots, so the next row goes behind them (`Page.Packed.insert`), and there is no slot for it only if
there are as many rows as slots.
-/

namespace RowStore

/-- A row has the shape of a schema, and all of its fields are set to values of their columns. -/
def Row.Storable (schema : Schema) (r : Row) : Prop :=
  r.schema.shape = schema.shape ∧ List.Forall₂ ColumnType.Takes schema.shape r.fields

instance (schema : Schema) : DecidablePred (Row.Storable schema) :=
  fun _ => inferInstanceAs (Decidable (_ ∧ _))

/-- On a page in front of the other's, or on the same page in a lower slot. -/
def RecordId.Before (a b : RecordId) : Prop :=
  a.page.number < b.page.number ∨ a.page.number = b.page.number ∧ a.slot < b.slot

/-- Both rows are stored, the one in front of the other. -/
def Row.Before (r s : Row) : Prop :=
  ∃ a b, r.recordId = some a ∧ s.recordId = some b ∧ a.Before b

lemma PageLayout.div_lt_headerWords {l : PageLayout} {slot : ℕ} (h : slot < l.slots) :
    slot / wordBits < l.headerWords := by
  rw [headerWords, wordBits]
  omega

namespace Page

variable {p : Page} {slot : ℕ} {r : Row}

/-! ## Checks -/

lemma checkFields_eq_ok_iff {types : List ColumnType} {fields : List (Option Value)}
    (h : types.length = fields.length) :
    checkFields types fields = .ok () ↔ List.Forall₂ ColumnType.Takes types fields := by
  induction types generalizing fields with
  | nil =>
    obtain rfl := List.length_eq_zero_iff.1 h.symm
    exact ⟨fun _ => .nil, fun _ => rfl⟩
  | cons ty types ih =>
    rcases fields with _ | ⟨_ | v, fields⟩
    · cases h
    · rw [List.forall₂_cons]
      exact ⟨fun h => (by cases h), fun ⟨⟨_, h, _⟩, _⟩ => (by cases h)⟩
    · rw [List.forall₂_cons, checkFields, ← ih (Nat.succ.inj h)]
      split
      · next hfits => exact ⟨fun h => ⟨⟨v, rfl, hfits⟩, h⟩, fun ⟨_, h⟩ => h⟩
      · next hfits =>
        refine ⟨fun h => (by cases h), fun ⟨⟨w, hw, hfits'⟩, _⟩ => ?_⟩
        cases hw
        exact absurd hfits' hfits

lemma checkFields_eq_error {types : List ColumnType} {fields : List (Option Value)} {e : Error}
    (h : checkFields types fields = .error e) :
    ∃ expected actual, e = .typeMismatch expected actual := by
  induction types generalizing fields with
  | nil => cases h
  | cons ty types ih =>
    rcases fields with _ | ⟨_ | v, fields⟩
    · cases h
    · cases h
      exact ⟨_, _, rfl⟩
    · rw [checkFields] at h
      split at h
      · exact ih h
      · cases h
        exact ⟨_, _, rfl⟩

lemma check_eq_ok_iff (hwidth : r.width = r.schema.width) :
    p.check r = .ok () ↔ r.Storable p.schema := by
  rw [check, Row.Storable]
  split
  · next hshape =>
    have hlength : p.schema.shape.length = r.fields.length := by
      rw [← hshape, Schema.length_shape, ← hwidth, Row.width]
    rw [checkFields_eq_ok_iff hlength]
    exact ⟨fun h => ⟨hshape, h⟩, fun h => h.2⟩
  · next hshape => exact ⟨fun h => (by cases h), fun h => absurd h.1 hshape⟩

lemma check_eq_error {e : Error} (h : p.check r = .error e) :
    ∃ expected actual, e = .typeMismatch expected actual := by
  rw [check] at h
  split at h
  · exact checkFields_eq_error h
  · cases h
    exact ⟨_, _, rfl⟩

/-! ## Slots -/

/-- The bit of a slot in the bitmap. -/
def bitAt (p : Page) (slot : ℕ) : Bool :=
  Word.bit (p.bitmap[slot / PageLayout.wordBits]?.getD 0) (slot % PageLayout.wordBits)

lemma isUsed_eq_bitAt (p : Page) (slot : ℕ) :
    p.isUsed slot = (decide (slot < p.layout.slots) && p.bitAt slot) := rfl

lemma bitAt_setSlot (hsize : p.bitmap.size = p.layout.headerWords) (hslot : slot < p.layout.slots)
    (entry : Option Row) (j : ℕ) :
    (p.setSlot slot entry).bitAt j = if j = slot then entry.isSome else p.bitAt j := by
  have hword := PageLayout.div_lt_headerWords hslot
  have hbit : slot % PageLayout.wordBits < 32 := Nat.mod_lt slot (by decide)
  simp only [bitAt, setSlot, Array.getElem?_modify]
  by_cases hj : j / PageLayout.wordBits = slot / PageLayout.wordBits
  · obtain ⟨word, hget⟩ : ∃ word, p.bitmap[slot / PageLayout.wordBits]? = some word :=
      ⟨_, Array.getElem?_eq_getElem (hsize ▸ hword)⟩
    have hsame : j % PageLayout.wordBits = slot % PageLayout.wordBits ↔ j = slot := by
      rw [PageLayout.wordBits] at hj ⊢
      omega
    rw [hj, if_pos rfl, hget, Option.map_some, Option.getD_some, Option.getD_some,
      Word.bit_withBit _ _ _ _ hbit, if_congr hsame rfl rfl]
  · have hne : slot / PageLayout.wordBits ≠ j / PageLayout.wordBits := fun h => hj h.symm
    have hsame : j ≠ slot := fun h => hj (by rw [h])
    rw [if_neg hne, if_neg hsame]

lemma isUsed_setSlot (hsize : p.bitmap.size = p.layout.headerWords) (hslot : slot < p.layout.slots)
    (entry : Option Row) (j : ℕ) :
    (p.setSlot slot entry).isUsed j = if j = slot then entry.isSome else p.isUsed j := by
  rw [isUsed_eq_bitAt, bitAt_setSlot hsize hslot, isUsed_eq_bitAt]
  show (decide (j < p.layout.slots) && _) = _
  by_cases hj : j = slot
  · rw [if_pos hj, if_pos hj, hj, decide_eq_true hslot, Bool.true_and]
  · rw [if_neg hj, if_neg hj]

lemma row?_setSlot (hslot : slot < p.entries.length) (entry : Option Row) (j : ℕ) :
    (p.setSlot slot entry).row? j = if j = slot then entry else p.row? j := by
  rw [row?, setSlot, row?, List.getElem?_set]
  by_cases hj : j = slot
  · simp [hj, hslot]
  · have hne : slot ≠ j := fun h => hj h.symm
    rw [if_neg hne, if_neg hj]

lemma row?_eq_getElem (hslot : slot < p.entries.length) : p.row? slot = p.entries[slot] := by
  rw [row?, List.getElem?_eq_getElem hslot]
  rfl

lemma row?_eq_none (hslot : p.entries.length ≤ slot) : p.row? slot = none := by
  rw [row?, List.getElem?_eq_none hslot]
  rfl

lemma freeSlot?_eq_some_iff : p.freeSlot? = some slot ↔
    slot < p.layout.slots ∧ p.isUsed slot = false ∧ ∀ j < slot, p.isUsed j = true := by
  rw [freeSlot?, List.find?_range_eq_some]
  simp [and_left_comm]

lemma bitAt_empty (id : PageId) (schema : Schema) (layout : PageLayout) (i : ℕ) :
    (empty id schema layout).bitAt i = false := by
  rw [bitAt, empty, Array.getElem?_replicate]
  split <;> simp [Word.bit]

lemma row?_empty (id : PageId) (schema : Schema) (layout : PageLayout) (i : ℕ) :
    (empty id schema layout).row? i = none := by
  rw [row?, empty, List.getElem?_replicate]
  split <;> rfl

/-! ## Sound pages -/

/-- A slot is marked exactly if it holds a row, and the rows fit the page and know their places. -/
structure Sound (p : Page) : Prop where
  length_entries : p.entries.length = p.layout.slots
  size_bitmap : p.bitmap.size = p.layout.headerWords
  isUsed_eq : ∀ slot, p.isUsed slot = (p.row? slot).isSome
  stored : ∀ slot r, p.row? slot = some r →
    r.Storable p.schema ∧ r.recordId = some (p.recordIdOf slot)

namespace Sound

lemma empty (id : PageId) (schema : Schema) (layout : PageLayout) :
    (Page.empty id schema layout).Sound where
  length_entries := List.length_replicate
  size_bitmap := Array.size_replicate
  isUsed_eq slot := by
    rw [isUsed_eq_bitAt, bitAt_empty, row?_empty, Bool.and_false]
    rfl
  stored slot r h := by
    rw [row?_empty] at h
    cases h

lemma lt_slots (hp : p.Sound) (hr : p.row? slot = some r) : slot < p.layout.slots := by
  rw [← hp.length_entries]
  refine Nat.lt_of_not_le fun hle => ?_
  rw [row?_eq_none hle] at hr
  cases hr

lemma setSlot (hp : p.Sound) (hslot : slot < p.layout.slots) (entry : Option Row)
    (hentry : ∀ r, entry = some r →
      r.Storable p.schema ∧ r.recordId = some (p.recordIdOf slot)) :
    (p.setSlot slot entry).Sound where
  length_entries := (List.length_set).trans hp.length_entries
  size_bitmap := (Array.size_modify).trans hp.size_bitmap
  isUsed_eq j := by
    rw [isUsed_setSlot hp.size_bitmap hslot, row?_setSlot (hp.length_entries ▸ hslot)]
    split
    · rfl
    · exact hp.isUsed_eq j
  stored j r h := by
    rw [row?_setSlot (hp.length_entries ▸ hslot)] at h
    split at h
    · next hj =>
      rw [hj]
      exact hentry r h
    · exact hp.stored j r h

end Sound

/-- On a page that was never read, no bit is set that belongs to no slot. -/
structure Exact (p : Page) : Prop extends Sound p where
  bitAt_eq : ∀ i, p.bitAt i = (p.row? i).isSome

namespace Exact

lemma empty (id : PageId) (schema : Schema) (layout : PageLayout) :
    (Page.empty id schema layout).Exact where
  toSound := .empty id schema layout
  bitAt_eq i := by
    rw [bitAt_empty, row?_empty]
    rfl

lemma setSlot (hp : p.Exact) (hslot : slot < p.layout.slots) (entry : Option Row)
    (hentry : ∀ r, entry = some r →
      r.Storable p.schema ∧ r.recordId = some (p.recordIdOf slot)) :
    (p.setSlot slot entry).Exact where
  toSound := hp.toSound.setSlot hslot entry hentry
  bitAt_eq i := by
    rw [bitAt_setSlot hp.size_bitmap hslot, row?_setSlot (hp.length_entries ▸ hslot)]
    split
    · rfl
    · exact hp.bitAt_eq i

end Exact

/-! ## The rows of a page -/

lemma rowCount_eq (p : Page) : p.rowCount = p.rows.length := by
  rw [rowCount, rows, List.length_filterMap_eq_countP]

@[simp] lemma rows_empty (id : PageId) (schema : Schema) (layout : PageLayout) :
    (empty id schema layout).rows = [] := by
  simp [rows, empty]

lemma exists_row?_of_mem {row : Row} (h : row ∈ p.rows) : ∃ slot, p.row? slot = some row := by
  rw [mem_rows_iff] at h
  obtain ⟨slot, hslot, hentry⟩ := List.getElem_of_mem h
  exact ⟨slot, (row?_eq_getElem hslot).trans hentry⟩

/-- Record ids tell the slots of a page apart, so they come in the order of the slots. -/
lemma Sound.pairwise_rows (hp : p.Sound) (hvalid : p.layout.Valid) :
    p.rows.Pairwise Row.Before := by
  rw [rows, List.pairwise_filterMap, List.pairwise_iff_getElem]
  intro i j hi hj hlt r hr s hs
  have hri : p.row? i = some r := (row?_eq_getElem hi).trans hr
  have hsj : p.row? j = some s := (row?_eq_getElem hj).trans hs
  refine ⟨_, _, (hp.stored i r hri).2, (hp.stored j s hsj).2, .inr ⟨rfl, ?_⟩⟩
  have hmax : p.entries.length ≤ 65536 := hp.length_entries ▸ hvalid.2
  rw [recordIdOf, recordIdOf, UInt16.lt_iff_toNat_lt, UInt16.toNat_ofNat_of_lt',
    UInt16.toNat_ofNat_of_lt']
  · exact hlt
  · exact Nat.lt_of_lt_of_le hj hmax
  · exact Nat.lt_of_lt_of_le hi hmax

/-! ## Storing -/

lemma insert_eq_error {e : Error} (h : p.check r = .error e) : p.insert r = .error e := by
  rw [insert, h]
  rfl

lemma insert_eq_ok (hcheck : p.check r = .ok ()) (hslot : p.freeSlot? = some slot) :
    p.insert r = .ok (p.recordIdOf slot,
      p.setSlot slot (some { r with recordId := some (p.recordIdOf slot) })) := by
  simp only [insert, hcheck, hslot]
  rfl

/-- The rows of a page are in its lowest slots. -/
structure Packed (p : Page) : Prop extends Sound p where
  entries_eq : p.entries =
    p.rows.map some ++ List.replicate (p.layout.slots - p.rows.length) none

namespace Packed

lemma empty (id : PageId) (schema : Schema) (layout : PageLayout) :
    (Page.empty id schema layout).Packed where
  toSound := .empty id schema layout
  entries_eq := by
    rw [rows_empty]
    rfl

lemma length_rows_le (hp : p.Packed) : p.rows.length ≤ p.layout.slots := by
  rw [← hp.length_entries]
  exact List.length_filterMap_le _ _

lemma freeCount_eq_zero_iff (hp : p.Packed) :
    p.freeCount = 0 ↔ p.rows.length = p.layout.slots := by
  have hle := hp.length_rows_le
  rw [freeCount, rowCount_eq]
  omega

lemma isUsed_iff (hp : p.Packed) (slot : ℕ) : p.isUsed slot = true ↔ slot < p.rows.length := by
  rw [hp.isUsed_eq, row?, hp.entries_eq, List.getElem?_append, List.length_map,
    List.getElem?_replicate]
  split
  · next hlt =>
    rw [List.getElem?_map, List.getElem?_eq_getElem hlt]
    exact ⟨fun _ => hlt, fun _ => rfl⟩
  · next hge =>
    refine ⟨fun h => ?_, fun h => absurd h hge⟩
    split at h <;> cases h

lemma freeSlot?_eq (hp : p.Packed) (h : p.rows.length < p.layout.slots) :
    p.freeSlot? = some p.rows.length := by
  rw [freeSlot?_eq_some_iff]
  refine ⟨h, ?_, fun j hj => (hp.isUsed_iff j).2 hj⟩
  rw [← Bool.not_eq_true, hp.isUsed_iff]
  exact Nat.lt_irrefl _

/-- The next row goes behind the others. -/
lemma insert (hp : p.Packed) (hfree : p.rows.length < p.layout.slots)
    (hwidth : r.width = r.schema.width) (hr : r.Storable p.schema) :
    ∃ id p', p.insert r = .ok (id, p') ∧ p'.Packed ∧ p'.id = p.id ∧ p'.schema = p.schema ∧
      p'.layout = p.layout ∧ p'.rows = p.rows ++ [{ r with recordId := some id }] := by
  have hcheck : p.check r = .ok () := (check_eq_ok_iff hwidth).2 hr
  obtain ⟨k, hk⟩ : ∃ k, p.layout.slots - p.rows.length = k + 1 :=
    Nat.exists_eq_add_one_of_ne_zero (by omega)
  set stored : Row := { r with recordId := some (p.recordIdOf p.rows.length) } with hstored
  -- The first of the free entries gives way, and the others stay behind it.
  have hentries : (p.setSlot p.rows.length (some stored)).entries =
      (p.rows ++ [stored]).map some ++ List.replicate k none := by
    rw [Page.setSlot, hp.entries_eq, hk, List.replicate_succ, List.set_append_right _ _ (by simp),
      List.length_map, Nat.sub_self, List.set_cons_zero, List.map_append, List.append_assoc]
    rfl
  have hrows : (p.setSlot p.rows.length (some stored)).rows = p.rows ++ [stored] := by
    rw [rows, hentries]
    simp
  refine ⟨_, _, insert_eq_ok hcheck (hp.freeSlot?_eq hfree), ⟨?_, ?_⟩, rfl, rfl, rfl, hrows⟩
  · refine hp.toSound.setSlot hfree _ fun r' hr' => ?_
    cases hr'
    exact ⟨hr, rfl⟩
  · rw [hrows, hentries, List.length_append]
    congr 2
    show k = p.layout.slots - (p.rows.length + 1)
    omega

end Packed

end Page

end RowStore
