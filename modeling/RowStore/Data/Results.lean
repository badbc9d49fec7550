import Mathlib.Data.List.Forall2

/-!
# Lists of results

What `List.mapM` does with a function that can fail: it either answers for every entry, or with the
failure of one of them.
-/

namespace RowStore

variable {α β ε : Type} {f : α → Except ε β} {l : List α}

theorem mapM_cons_eq_ok_iff {a : α} {bs : List β} :
    (a :: l).mapM f = .ok bs ↔ ∃ b rest, f a = .ok b ∧ l.mapM f = .ok rest ∧ bs = b :: rest := by
  rw [List.mapM_cons]
  rcases f a with e | b
  · exact ⟨fun h => (by cases h), fun ⟨_, _, h, _⟩ => (by cases h)⟩
  · rcases l.mapM f with e | rest
    · exact ⟨fun h => (by cases h), fun ⟨_, _, _, h, _⟩ => (by cases h)⟩
    · constructor
      · intro h
        cases h
        exact ⟨b, rest, rfl, rfl, rfl⟩
      · rintro ⟨_, _, h, h', rfl⟩
        cases h
        cases h'
        rfl

theorem mapM_congr_of_mem {g : α → Except ε β} (h : ∀ a ∈ l, f a = g a) : l.mapM f = l.mapM g := by
  induction l with
  | nil => rfl
  | cons a l ih =>
    rw [List.mapM_cons, List.mapM_cons, h a List.mem_cons_self,
      ih fun b hb => h b (List.mem_cons_of_mem a hb)]

/-- The answers are those for the entries, one by one. -/
theorem mapM_eq_ok_iff {bs : List β} :
    l.mapM f = .ok bs ↔ List.Forall₂ (fun a b => f a = .ok b) l bs := by
  induction l generalizing bs with
  | nil =>
    rw [List.forall₂_nil_left_iff]
    constructor
    · intro h
      cases h
      rfl
    · rintro rfl
      rfl
  | cons a l ih =>
    rw [mapM_cons_eq_ok_iff, List.forall₂_cons_left_iff]
    constructor
    · rintro ⟨b, rest, ha, hrest, rfl⟩
      exact ⟨b, rest, ha, ih.1 hrest, rfl⟩
    · rintro ⟨b, rest, ha, hrest, rfl⟩
      exact ⟨b, rest, ha, ih.2 hrest, rfl⟩

theorem mapM_concat {bs : List β} {a : α} {b : β} (hl : l.mapM f = .ok bs) (ha : f a = .ok b) :
    (l ++ [a]).mapM f = .ok (bs ++ [b]) := by
  rw [mapM_eq_ok_iff] at hl ⊢
  exact List.rel_append hl (.cons ha .nil)

theorem length_of_mapM_eq_ok {bs : List β} (h : l.mapM f = .ok bs) : bs.length = l.length :=
  (mapM_eq_ok_iff.1 h).length_eq.symm

theorem getElem_of_mapM_eq_ok {bs : List β} (h : l.mapM f = .ok bs) (i : ℕ) (hi : i < l.length)
    (hi' : i < bs.length) : f l[i] = .ok bs[i] :=
  (List.forall₂_iff_get.1 (mapM_eq_ok_iff.1 h)).2 i hi hi'

theorem mem_of_mapM_eq_ok {bs : List β} (h : l.mapM f = .ok bs) {b : β} (hb : b ∈ bs) :
    ∃ a ∈ l, f a = .ok b := by
  obtain ⟨i, hi, rfl⟩ := List.getElem_of_mem hb
  have hi' : i < l.length := length_of_mapM_eq_ok h ▸ hi
  exact ⟨l[i], List.getElem_mem hi', getElem_of_mapM_eq_ok h i hi' hi⟩

/-- A failure is that of an entry. -/
theorem exists_of_mapM_eq_error {e : ε} (h : l.mapM f = .error e) : ∃ a ∈ l, f a = .error e := by
  induction l with
  | nil => cases h
  | cons a l ih =>
    rw [List.mapM_cons] at h
    rcases ha : f a with e' | b <;> rw [ha] at h
    · cases h
      exact ⟨a, List.mem_cons_self, ha⟩
    · rcases hl : l.mapM f with e' | rest <;> rw [hl] at h
      · cases h
        obtain ⟨a', hmem, ha'⟩ := ih hl
        exact ⟨a', List.mem_cons_of_mem a hmem, ha'⟩
      · cases h

/-- If there is an answer for every entry in front of one that fails, its failure is told. -/
theorem mapM_eq_error_of_first {e : ε} {i : ℕ} (hi : i < l.length) (herror : f l[i] = .error e)
    (h : ∀ (j : ℕ) (hj : j < l.length), j < i → ∃ b, f l[j] = .ok b) : l.mapM f = .error e := by
  induction l generalizing i with
  | nil => cases hi
  | cons a l ih =>
    rw [List.mapM_cons]
    rcases i with _ | i
    · rw [List.getElem_cons_zero] at herror
      rw [herror]
      rfl
    · obtain ⟨b, hb⟩ := h 0 (Nat.succ_pos l.length) (Nat.succ_pos i)
      have htail : ∀ (j : ℕ) (hj : j < l.length), j < i → ∃ b, f l[j] = .ok b := fun j hj hlt =>
        h (j + 1) (Nat.succ_lt_succ hj) (Nat.succ_lt_succ hlt)
      rw [List.getElem_cons_zero] at hb
      rw [List.getElem_cons_succ] at herror
      rw [hb, ih (Nat.lt_of_succ_lt_succ hi) herror htail]
      rfl

/-- If there is an answer for every entry, there are answers. -/
theorem exists_mapM_eq_ok {P : ℕ → β → Prop}
    (h : ∀ (i : ℕ) (hi : i < l.length), ∃ b, f l[i] = .ok b ∧ P i b) :
    ∃ bs, l.mapM f = .ok bs ∧ ∀ (i : ℕ) (hi : i < bs.length), P i bs[i] := by
  rcases hbs : l.mapM f with e | bs
  · obtain ⟨a, ha, herror⟩ := exists_of_mapM_eq_error hbs
    obtain ⟨i, hi, rfl⟩ := List.getElem_of_mem ha
    obtain ⟨b, hb, -⟩ := h i hi
    cases hb.symm.trans herror
  · refine ⟨bs, rfl, fun i hi => ?_⟩
    have hi' : i < l.length := length_of_mapM_eq_ok hbs ▸ hi
    obtain ⟨b, hb, hP⟩ := h i hi'
    obtain rfl := Except.ok.inj (hb.symm.trans (getElem_of_mapM_eq_ok hbs i hi' hi))
    exact hP

end RowStore
