import Mathlib.Data.String.Basic
import RowStore.Proofs.Text.Utf8

/-!
# Texts by their bytes and by their characters

Texts are stored as bytes and read as characters, and it makes no difference which of the two one
looks at to put them in order (`Utf8.encode_lt_encode_iff`) or to find one in another
(`Utf8.encode_infix_encode_iff`).

For the order it is enough that of two characters the smaller one has the smaller bytes.  Fewer
bytes begin with a smaller byte; as many bytes are the digits of the number of the character to the
base 64, from the highest on.  For the search it is enough that the first byte of a character is
none that occurs inside of one, so bytes of a text that are found begin where a character begins.
-/

namespace RowStore.Utf8

/-! ## Order -/

/-- The digits in front decide between two numbers, and the last ones only if those agree. -/
lemma div_lt_or_mod_lt {v w : ℕ} (h : v < w) :
    v / 64 < w / 64 ∨ v / 64 = w / 64 ∧ v % 64 < w % 64 := by
  omega

lemma cons_ofNat_lt_iff {m n : ℕ} (hm : m < 256) (hn : n < 256) {xs ys : Bytes} :
    UInt8.ofNat m :: xs < UInt8.ofNat n :: ys ↔ m < n ∨ m = n ∧ xs < ys := by
  rw [List.cons_lt_cons_iff, UInt8.lt_iff_toNat_lt, ← UInt8.toNat_inj,
    UInt8.toNat_ofNat_of_lt' hm, UInt8.toNat_ofNat_of_lt' hn]

/-- A smaller character has smaller bytes, whatever follows them. -/
lemma utf8EncodeChar_append_lt {c d : Char} (h : c < d) (xs ys : Bytes) :
    String.utf8EncodeChar c ++ xs < String.utf8EncodeChar d ++ ys := by
  have hlt : c.toNat < d.toNat := h
  have hbound : d.toNat < 0x110000 := by
    have hvalid : d.toNat < 0xD800 ∨ 0xDFFF < d.toNat ∧ d.toNat < 0x110000 := d.valid
    omega
  simp only [String.utf8EncodeChar, Char.toNat_val]
  generalize c.toNat = v at hlt
  generalize d.toNat = w at hlt hbound
  have hlast := div_lt_or_mod_lt hlt
  have hthird : v / 64 < w / 64 → _ := div_lt_or_mod_lt
  have hsecond : v / 4096 < w / 4096 → _ := div_lt_or_mod_lt
  simp only [Nat.div_div_eq_div_mul, Nat.reduceMul] at hthird hsecond
  -- The first of four bytes holds the whole of the highest digit.
  have hv : v / 262144 % 8 = v / 262144 := by omega
  have hw : w / 262144 % 8 = w / 262144 := by omega
  split_ifs <;>
    simp (disch := omega) only [List.cons_append, List.nil_append, cons_ofNat_lt_iff] <;> omega

lemma utf8EncodeChar_ne_nil (c : Char) : String.utf8EncodeChar c ≠ [] := by
  intro h
  have hlength := String.length_utf8EncodeChar c
  rw [h] at hlength
  exact Nat.ne_of_lt c.utf8Size_pos hlength

/-- By induction on where two lists of characters first differ. -/
lemma flatMap_utf8EncodeChar_lt {cs ds : List Char} (h : cs < ds) :
    cs.flatMap String.utf8EncodeChar < ds.flatMap String.utf8EncodeChar := by
  induction h with
  | @nil d ds =>
    obtain ⟨b, bs, hd⟩ := List.exists_cons_of_ne_nil (utf8EncodeChar_ne_nil d)
    rw [List.flatMap_cons, hd]
    exact List.nil_lt_cons b _
  | cons h ih =>
    rw [List.flatMap_cons, List.flatMap_cons]
    exact List.append_left_lt ih
  | rel h =>
    rw [List.flatMap_cons, List.flatMap_cons]
    exact utf8EncodeChar_append_lt h _ _

/-- **Texts are ordered by their bytes as they are by their characters.** -/
theorem encode_lt_encode_iff {s t : String} : encode s < encode t ↔ s < t := by
  have hmono : ∀ {s t : String}, s < t → encode s < encode t := fun h =>
    flatMap_utf8EncodeChar_lt (String.lt_iff_toList_lt.1 h)
  constructor
  · intro h
    rcases lt_trichotomy s t with hlt | rfl | hgt
    · exact hlt
    · exact absurd h (List.lt_irrefl _)
    · exact absurd (hmono hgt) (List.lt_asymm h)
  · exact hmono

lemma map_toNat_lt_map_toNat_iff {cs ds : List Char} :
    cs.map Char.toNat < ds.map Char.toNat ↔ cs < ds := by
  induction cs generalizing ds with
  | nil => cases ds <;> simp
  | cons c cs ih =>
    rcases ds with _ | ⟨d, ds⟩
    · simp
    · have hlt : c.toNat < d.toNat ↔ c < d := Iff.rfl
      have heq : c.toNat = d.toNat ↔ c = d := Char.toNat_inj
      rw [List.map_cons, List.map_cons, List.cons_lt_cons_iff, List.cons_lt_cons_iff, hlt, heq, ih]

lemma compare_eq_lt_iff {xs ys : Bytes} : compare xs ys = .lt ↔ xs < ys := by
  rw [List.compare_eq_compareLex]
  induction xs generalizing ys with
  | nil => cases ys <;> simp [List.compareLex]
  | cons x xs ih =>
    rcases ys with _ | ⟨y, ys⟩
    · simp [List.compareLex]
    · rw [List.compareLex_cons_cons, Ordering.then_eq_lt, Std.compare_eq_lt,
        Std.compare_eq_iff_eq, ih, List.cons_lt_cons_iff]

lemma encode_injective : Function.Injective encode :=
  Function.LeftInverse.injective decode_encode

lemma order_eq_lt_iff {s t : String} : order s t = .lt ↔ s < t :=
  compare_eq_lt_iff.trans encode_lt_encode_iff

lemma order_eq_eq_iff {s t : String} : order s t = .eq ↔ s = t :=
  Std.compare_eq_iff_eq.trans encode_injective.eq_iff

lemma order_swap (s t : String) : (order s t).swap = order t s :=
  Std.OrientedOrd.eq_swap.symm

/-! ## Occurrence -/

lemma occursIn_eq_true_iff {needle hay : List Char} :
    occursIn needle hay = true ↔ needle <:+: hay := by
  induction hay with
  | nil => simp [occursIn]
  | cons c cs ih =>
    rw [occursIn, Bool.or_eq_true, ih, List.isPrefixOf_iff_prefix, List.infix_cons_iff]

lemma contains_eq_true_iff {s t : String} : contains s t = true ↔ t.toList <:+: s.toList :=
  occursIn_eq_true_iff

/-- A text is found in another if this consists of something, the text, and something more. -/
lemma toList_infix_toList_iff {s t : String} :
    t.toList <:+: s.toList ↔ ∃ u v : String, s = u ++ t ++ v := by
  constructor
  · rintro ⟨us, vs, h⟩
    refine ⟨.ofList us, .ofList vs, String.toList_injective ?_⟩
    simpa using h.symm
  · rintro ⟨u, v, rfl⟩
    exact ⟨u.toList, v.toList, by simp⟩

/-- The bytes of characters in front of any others are read as these characters. -/
lemma decodeFrom_flatMap_append (cs : List Char) (rest : Bytes) :
    decodeFrom none (cs.flatMap String.utf8EncodeChar ++ rest) = cs ++ decodeFrom none rest := by
  induction cs with
  | nil => rfl
  | cons c cs ih =>
    rw [List.flatMap_cons, List.append_assoc, decodeFrom_utf8EncodeChar, ih, List.cons_append]

/-- Where the bytes of characters begin, no character is being read. -/
lemma eq_nil_of_append_eq {c d : Char} {front back more rest : Bytes}
    (hc : String.utf8EncodeChar c = front ++ back) (hback : back ≠ [])
    (hd : back ++ more = String.utf8EncodeChar d ++ rest) : front = [] := by
  have hdpos : 0 < (String.utf8EncodeChar d).length :=
    List.length_pos_of_ne_nil (utf8EncodeChar_ne_nil d)
  have hbackpos : 0 < back.length := List.length_pos_of_ne_nil hback
  have hcpos : front.length < (String.utf8EncodeChar c).length := by
    rw [hc, List.length_append]
    omega
  have hsame : (String.utf8EncodeChar c)[front.length]? = (String.utf8EncodeChar d)[0]? :=
    calc (String.utf8EncodeChar c)[front.length]?
      _ = back[0]? := by rw [hc, List.getElem?_append_right (Nat.le_refl _), Nat.sub_self]
      _ = (back ++ more)[0]? := (List.getElem?_append_left hbackpos).symm
      _ = (String.utf8EncodeChar d)[0]? := by rw [hd, List.getElem?_append_left hdpos]
  rw [List.getElem?_eq_getElem hcpos, List.getElem?_eq_getElem hdpos, Option.some.injEq] at hsame
  have hlead : (String.utf8EncodeChar c)[front.length].IsUTF8FirstByte := by
    rw [hsame, UInt8.isUTF8FirstByte_getElem_utf8EncodeChar]
  exact List.eq_nil_of_length_eq_zero (UInt8.isUTF8FirstByte_getElem_utf8EncodeChar.1 hlead)

/-- Bytes of characters that are found among those of others are found at the start of one. -/
lemma infix_of_flatMap_eq {t : Char} {ts cs : List Char} {front back : Bytes}
    (h : cs.flatMap String.utf8EncodeChar =
      front ++ ((t :: ts).flatMap String.utf8EncodeChar ++ back)) : t :: ts <:+: cs := by
  induction cs generalizing front with
  | nil =>
    rw [List.flatMap_nil, List.flatMap_cons] at h
    simp at h
  | cons c cs ih =>
    rcases front with _ | ⟨b, front⟩
    · have hread := congrArg (decodeFrom none) h
      rw [List.nil_append, decodeFrom_flatMap, decodeFrom_flatMap_append] at hread
      exact ⟨[], decodeFrom none back, hread.symm⟩
    · rw [List.flatMap_cons, List.append_eq_append_iff] at h
      obtain ⟨front', hfront, hrest⟩ | ⟨back', hc, hrest⟩ := h
      · exact (ih hrest).trans (List.suffix_cons c cs).isInfix
      · rcases back' with _ | ⟨b', back'⟩
        · exact (@ih [] hrest.symm).trans (List.suffix_cons c cs).isInfix
        · rw [List.flatMap_cons, List.append_assoc] at hrest
          cases eq_nil_of_append_eq hc (List.cons_ne_nil b' back') hrest.symm

/-- **Texts are found by their bytes where they are found by their characters.** -/
theorem encode_infix_encode_iff {s t : String} :
    encode t <:+: encode s ↔ t.toList <:+: s.toList := by
  constructor
  · rintro ⟨front, back, h⟩
    rw [List.append_assoc] at h
    rcases hts : t.toList with _ | ⟨c, ts⟩
    · exact List.nil_infix
    · rw [encode, hts] at h
      exact infix_of_flatMap_eq h.symm
  · rintro ⟨us, vs, h⟩
    refine ⟨us.flatMap String.utf8EncodeChar, vs.flatMap String.utf8EncodeChar, ?_⟩
    rw [encode, encode, ← h, List.flatMap_append, List.flatMap_append]

end RowStore.Utf8
