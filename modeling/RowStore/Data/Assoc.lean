/-!
# Finite maps in order of insertion

`Assoc κ ν` is a finite map from keys to values, kept as the list of its entries.  No key occurs
twice (`Assoc.nodup`).  A new key goes to the end and a known key keeps its place, so the keys are
listed in the order in which they were first added.

The map is looked at through `Assoc.find?`; what `insert`, `erase` and `filterKeys` do to it is
said by one equation each.
-/

namespace RowStore

/-- A finite map whose entries are listed in order of insertion. -/
structure Assoc (κ ν : Type) where
  entries : List (κ × ν)
  nodup : (entries.map Prod.fst).Nodup

namespace Assoc

variable {κ ν : Type}

/-- The map without entries. -/
def empty : Assoc κ ν := ⟨[], by simp⟩

instance : EmptyCollection (Assoc κ ν) := ⟨empty⟩

instance : Inhabited (Assoc κ ν) := ⟨empty⟩

/-- The keys, in order of insertion. -/
def keys (m : Assoc κ ν) : List κ := m.entries.map Prod.fst

/-- The number of entries. -/
def size (m : Assoc κ ν) : Nat := m.entries.length

section

variable [DecidableEq κ]

/-- The value of the first entry with key `k`. -/
def lookupIn (k : κ) : List (κ × ν) → Option ν
  | [] => none
  | (k', v) :: rest => if k' = k then some v else lookupIn k rest

/-- Replaces the value of the first entry with key `k`, or adds an entry at the end. -/
def putIn (k : κ) (v : ν) : List (κ × ν) → List (κ × ν)
  | [] => [(k, v)]
  | (k', v') :: rest => if k' = k then (k, v) :: rest else (k', v') :: putIn k v rest

theorem map_fst_putIn (k : κ) (v : ν) (l : List (κ × ν)) :
    (putIn k v l).map Prod.fst =
      if k ∈ l.map Prod.fst then l.map Prod.fst else l.map Prod.fst ++ [k] := by
  induction l with
  | nil => simp [putIn]
  | cons e rest ih =>
    obtain ⟨k', v'⟩ := e
    by_cases h : k' = k
    · simp [putIn, h]
    · have hk : ¬ k = k' := fun hk => h hk.symm
      simp only [putIn, h, if_false, List.map_cons, ih, List.mem_cons, hk, false_or]
      split <;> simp

theorem lookupIn_putIn (k j : κ) (v : ν) (l : List (κ × ν)) :
    lookupIn j (putIn k v l) = if k = j then some v else lookupIn j l := by
  induction l with
  | nil => simp [putIn, lookupIn]
  | cons e rest ih =>
    obtain ⟨k', v'⟩ := e
    grind [putIn, lookupIn]

theorem lookupIn_filter (p : κ → Bool) (j : κ) (l : List (κ × ν)) :
    lookupIn j (l.filter fun e => p e.1) = if p j then lookupIn j l else none := by
  induction l with
  | nil => simp [lookupIn]
  | cons e rest ih =>
    obtain ⟨k', v'⟩ := e
    by_cases hp : p k' <;> by_cases hj : k' = j <;> simp_all [lookupIn]

theorem lookupIn_eq_none_iff (k : κ) (l : List (κ × ν)) :
    lookupIn k l = none ↔ k ∉ l.map Prod.fst := by
  induction l with
  | nil => simp [lookupIn]
  | cons e rest ih =>
    obtain ⟨k', v'⟩ := e
    by_cases h : k' = k
    · simp [lookupIn, h]
    · have hk : ¬ k = k' := fun hk => h hk.symm
      simp [lookupIn, h, hk, ih]

/-- The value of a key. -/
def find? (m : Assoc κ ν) (k : κ) : Option ν := lookupIn k m.entries

/-- Whether a key has a value. -/
def contains (m : Assoc κ ν) (k : κ) : Bool := (m.find? k).isSome

/-- Gives a key a value, in place of the one it had. -/
def insert (m : Assoc κ ν) (k : κ) (v : ν) : Assoc κ ν where
  entries := putIn k v m.entries
  nodup := by
    have h := m.nodup
    rw [map_fst_putIn]
    split
    · exact h
    · next hk =>
      rw [List.nodup_append]
      refine ⟨h, by simp, ?_⟩
      intro a ha b hb
      simp only [List.mem_singleton] at hb
      subst hb
      exact fun hab => hk (hab ▸ ha)

/-- Keeps the entries whose keys pass a test. -/
def filterKeys (m : Assoc κ ν) (p : κ → Bool) : Assoc κ ν where
  entries := m.entries.filter fun e => p e.1
  nodup := by
    have h := m.nodup
    refine List.Nodup.sublist ?_ h
    exact List.Sublist.map _ List.filter_sublist

/-- Takes a key out. -/
def erase (m : Assoc κ ν) (k : κ) : Assoc κ ν :=
  m.filterKeys fun j => decide (j ≠ k)

/-! ## What the operations do -/

@[simp] theorem find?_empty (k : κ) : (∅ : Assoc κ ν).find? k = none := rfl

@[simp] theorem find?_insert (m : Assoc κ ν) (k j : κ) (v : ν) :
    (m.insert k v).find? j = if k = j then some v else m.find? j :=
  lookupIn_putIn k j v m.entries

@[simp] theorem find?_filterKeys (m : Assoc κ ν) (p : κ → Bool) (j : κ) :
    (m.filterKeys p).find? j = if p j then m.find? j else none :=
  lookupIn_filter p j m.entries

@[simp] theorem find?_erase (m : Assoc κ ν) (k j : κ) :
    (m.erase k).find? j = if k = j then none else m.find? j := by
  by_cases h : k = j
  · simp [erase, h]
  · have hj : ¬ j = k := fun hj => h hj.symm
    simp [erase, h, hj]

theorem find?_eq_none_iff (m : Assoc κ ν) (k : κ) : m.find? k = none ↔ k ∉ m.keys :=
  lookupIn_eq_none_iff k m.entries

/-! ## Keys and entries -/

omit [DecidableEq κ] in
theorem nodup_keys (m : Assoc κ ν) : m.keys.Nodup := m.nodup

theorem mem_keys_iff (m : Assoc κ ν) (k : κ) : k ∈ m.keys ↔ ∃ v, m.find? k = some v := by
  rw [← Option.isSome_iff_exists, Option.isSome_iff_ne_none, ne_eq, find?_eq_none_iff,
    Decidable.not_not]

theorem keys_erase (m : Assoc κ ν) (k : κ) : (m.erase k).keys = m.keys.erase k := by
  rw [m.nodup_keys.erase_eq_filter]
  simp only [keys, erase, filterKeys, List.filter_map]
  congr 1
  apply List.filter_congr
  intro e _
  by_cases he : e.1 = k <;> simp [he]

theorem size_erase {m : Assoc κ ν} {k : κ} {v : ν} (h : m.find? k = some v) :
    (m.erase k).size + 1 = m.size := by
  have hmem : k ∈ m.keys := (m.mem_keys_iff k).2 ⟨v, h⟩
  have hpos : 0 < m.keys.length := List.length_pos_of_mem hmem
  have hlen : (m.erase k).keys.length = m.keys.length - 1 := by
    rw [keys_erase, List.length_erase_of_mem hmem]
  simp only [keys, List.length_map] at hlen hpos
  rw [size, size]
  omega

theorem putIn_of_not_mem {k : κ} {v : ν} : ∀ {l : List (κ × ν)}, k ∉ l.map Prod.fst →
    putIn k v l = l ++ [(k, v)]
  | [], _ => rfl
  | (k', v') :: rest, h => by
    simp only [List.map_cons, List.mem_cons, not_or] at h
    have hk : ¬ k' = k := fun e => h.1 e.symm
    rw [putIn, if_neg hk, putIn_of_not_mem h.2, List.cons_append]

/-- A new key goes to the end. -/
theorem entries_insert {m : Assoc κ ν} {k : κ} (h : m.find? k = none) (v : ν) :
    (m.insert k v).entries = m.entries ++ [(k, v)] :=
  putIn_of_not_mem ((m.find?_eq_none_iff k).1 h)

theorem size_insert {m : Assoc κ ν} {k : κ} (h : m.find? k = none) (v : ν) :
    (m.insert k v).size = m.size + 1 := by
  rw [size, entries_insert h, List.length_append]
  rfl

theorem lookupIn_eq_some_iff {k : κ} {v : ν} : ∀ {l : List (κ × ν)}, (l.map Prod.fst).Nodup →
    (lookupIn k l = some v ↔ (k, v) ∈ l)
  | [], _ => by simp [lookupIn]
  | (k', v') :: rest, h => by
    simp only [List.map_cons, List.nodup_cons] at h
    by_cases hk : k' = k
    · subst hk
      have hrest : (k', v) ∉ rest := fun hm => h.1 (List.mem_map_of_mem hm)
      simp [lookupIn, hrest, eq_comm]
    · have hk' : ¬ k = k' := fun e => hk e.symm
      simp [lookupIn, hk, hk', lookupIn_eq_some_iff h.2]

/-- What a key maps to is an entry. -/
theorem find?_eq_some_iff (m : Assoc κ ν) (k : κ) (v : ν) :
    m.find? k = some v ↔ (k, v) ∈ m.entries :=
  lookupIn_eq_some_iff m.nodup

/-- Without the entry of a key, the entries are those of the map from which it is erased. -/
theorem entries_perm_erase {m : Assoc κ ν} {k : κ} {v : ν} (h : m.find? k = some v) :
    m.entries.Perm ((k, v) :: (m.erase k).entries) := by
  have hmem : (k, v) ∈ m.entries := (m.find?_eq_some_iff k v).1 h
  obtain ⟨before, after, hsplit⟩ := List.append_of_mem hmem
  have hnodup := m.nodup
  have hrest : (m.erase k).entries = before ++ after := by
    simp only [erase, filterKeys, hsplit, List.filter_append, List.filter_cons]
    rw [hsplit] at hnodup
    simp only [List.map_append, List.map_cons, List.nodup_append, List.nodup_cons] at hnodup
    have hb : ∀ e ∈ before, e.1 ≠ k := fun e he hk =>
      hnodup.2.2 e.1 (List.mem_map_of_mem he) k (by simp) hk
    have ha : ∀ e ∈ after, e.1 ≠ k := fun e he hk =>
      hnodup.2.1.1 (hk ▸ List.mem_map_of_mem he)
    rw [List.filter_eq_self.2 (by simpa using hb), List.filter_eq_self.2 (by simpa using ha)]
    simp
  rw [hrest, hsplit]
  exact List.perm_middle

end

end Assoc

end RowStore
