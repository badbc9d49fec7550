import Mathlib.Tactic.IntervalCases
import RowStore.Text.Utf8

/-!
# Texts survive their stored form

Decoding the bytes of a text gives the text (`Utf8.decode_encode`), and what a text column keeps of
a text is the longest prefix that fits (`Utf8.isCut_cut`).

A character is read back byte by byte.  What its first byte announces is computed once for each
number of bytes (`Utf8.lead?_two`, `Utf8.lead?_three`, `Utf8.lead?_four`); every byte after it is in
the announced range, because the number of the character is neither too small for its form nor that
of a surrogate.
-/

namespace RowStore.Utf8

/-! ## Reading a character back -/

variable {owed bits n : ℕ} {low high : UInt8}

lemma toNat_ofNat_add (hn : n < 64) : (UInt8.ofNat (n + 0x80)).toNat = n + 0x80 := by
  apply UInt8.toNat_ofNat_of_lt'
  show n + 0x80 < 256
  omega

/-- The range of the bytes after the first, where nothing narrows it. -/
lemma tail_bounds (hn : n < 64) :
    (0x80 : UInt8).toNat ≤ n + 0x80 ∧ n + 0x80 ≤ (0xBF : UInt8).toNat := by
  constructor
  · exact Nat.le_add_left 0x80 n
  · show n + 0x80 ≤ 0xBF
    omega

lemma admits_ofNat (hn : n < 64) (hlow : low.toNat ≤ n + 0x80) (hhigh : n + 0x80 ≤ high.toNat) :
    (Partial.mk owed low high bits).admits (UInt8.ofNat (n + 0x80)) = true := by
  simp only [Partial.admits, Bool.and_eq_true, decide_eq_true_eq, UInt8.le_iff_toNat_le,
    toNat_ofNat_add hn]
  exact ⟨hlow, hhigh⟩

lemma extend_ofNat (hn : n < 64) :
    (Partial.mk owed low high bits).extend (UInt8.ofNat (n + 0x80)) = bits * 64 + n := by
  have hlow : (n + 0x80) % 64 = n := by omega
  rw [Partial.extend, toNat_ofNat_add hn, hlow]

/-- A byte of a character that is not its last. -/
lemma decodeFrom_extend (howed : 0 < owed) (hn : n < 64) (hlow : low.toNat ≤ n + 0x80)
    (hhigh : n + 0x80 ≤ high.toNat) (rest : Bytes) :
    decodeFrom (some ⟨owed + 1, low, high, bits⟩) (UInt8.ofNat (n + 0x80) :: rest) =
      decodeFrom (some ⟨owed, 0x80, 0xBF, bits * 64 + n⟩) rest := by
  have hmore : ¬ owed + 1 ≤ 1 := by omega
  rw [decodeFrom, step, if_pos (admits_ofNat hn hlow hhigh), if_neg hmore, extend_ofNat hn]
  rfl

/-- The last byte of a character. -/
lemma decodeFrom_complete (hn : n < 64) (hlow : low.toNat ≤ n + 0x80)
    (hhigh : n + 0x80 ≤ high.toNat) (rest : Bytes) :
    decodeFrom (some ⟨1, low, high, bits⟩) (UInt8.ofNat (n + 0x80) :: rest) =
      Char.ofNat (bits * 64 + n) :: decodeFrom none rest := by
  rw [decodeFrom, step, if_pos (admits_ofNat hn hlow hhigh), if_pos (Nat.le_refl 1),
    extend_ofNat hn]
  rfl

lemma decodeFrom_lead {p : Partial} (hlow : 0x80 ≤ n) (hn : n < 256)
    (hp : lead? (UInt8.ofNat n) = some p) (rest : Bytes) :
    decodeFrom none (UInt8.ofNat n :: rest) = decodeFrom (some p) rest := by
  have hlarge : ¬ UInt8.ofNat n < 0x80 := by
    rw [UInt8.lt_iff_toNat_lt, UInt8.toNat_ofNat_of_lt' hn]
    exact Nat.not_lt.2 hlow
  rw [decodeFrom, step, begin, if_neg hlarge, hp]
  rfl

lemma lead?_two {a : ℕ} (hlow : 2 ≤ a) (ha : a < 32) :
    lead? (UInt8.ofNat (a + 0xC0)) = some ⟨1, 0x80, 0xBF, a⟩ := by
  interval_cases a <;> rfl

lemma lead?_three {a : ℕ} (ha : a < 16) :
    lead? (UInt8.ofNat (a + 0xE0)) =
      some ⟨2, if a = 0 then 0xA0 else 0x80, if a = 13 then 0x9F else 0xBF, a⟩ := by
  interval_cases a <;> rfl

lemma lead?_four {a : ℕ} (ha : a ≤ 4) :
    lead? (UInt8.ofNat (a + 0xF0)) =
      some ⟨3, if a = 0 then 0x90 else 0x80, if a = 4 then 0x8F else 0xBF, a⟩ := by
  interval_cases a <;> rfl

lemma decodeFrom_one {a : ℕ} (ha : a < 0x80) (rest : Bytes) :
    decodeFrom none (UInt8.ofNat a :: rest) = Char.ofNat a :: decodeFrom none rest := by
  have hbyte : (UInt8.ofNat a).toNat = a := UInt8.toNat_ofNat_of_lt' (Nat.lt_trans ha (by decide))
  have hsmall : UInt8.ofNat a < 0x80 := by
    rw [UInt8.lt_iff_toNat_lt, hbyte]
    exact ha
  rw [decodeFrom, step, begin, if_pos hsmall, hbyte]
  rfl

lemma decodeFrom_two {a b : ℕ} (hlow : 2 ≤ a) (ha : a < 32) (hb : b < 64) (rest : Bytes) :
    decodeFrom none (UInt8.ofNat (a + 0xC0) :: UInt8.ofNat (b + 0x80) :: rest) =
      Char.ofNat (a * 64 + b) :: decodeFrom none rest := by
  obtain ⟨hmin, hmax⟩ := tail_bounds hb
  rw [decodeFrom_lead (by omega) (by omega) (lead?_two hlow ha),
    decodeFrom_complete hb hmin hmax]

lemma decodeFrom_three {a b c : ℕ} (ha : a < 16) (hb : b < 64) (hc : c < 64)
    (hlow : a = 0 → 32 ≤ b) (hhigh : a = 13 → b < 32) (rest : Bytes) :
    decodeFrom none
        (UInt8.ofNat (a + 0xE0) :: UInt8.ofNat (b + 0x80) :: UInt8.ofNat (c + 0x80) :: rest) =
      Char.ofNat ((a * 64 + b) * 64 + c) :: decodeFrom none rest := by
  have hmin : (if a = 0 then 0xA0 else 0x80 : UInt8).toNat ≤ b + 0x80 := by
    split
    · simp
      omega
    · simp
  have hmax : b + 0x80 ≤ (if a = 13 then 0x9F else 0xBF : UInt8).toNat := by
    split <;> simp <;> omega
  obtain ⟨hmin', hmax'⟩ := tail_bounds hc
  rw [decodeFrom_lead (by omega) (by omega) (lead?_three ha),
    decodeFrom_extend Nat.one_pos hb hmin hmax,
    decodeFrom_complete hc hmin' hmax']

lemma decodeFrom_four {a b c d : ℕ} (ha : a ≤ 4) (hb : b < 64) (hc : c < 64) (hd : d < 64)
    (hlow : a = 0 → 16 ≤ b) (hhigh : a = 4 → b < 16) (rest : Bytes) :
    decodeFrom none
        (UInt8.ofNat (a + 0xF0) :: UInt8.ofNat (b + 0x80) :: UInt8.ofNat (c + 0x80) ::
          UInt8.ofNat (d + 0x80) :: rest) =
      Char.ofNat (((a * 64 + b) * 64 + c) * 64 + d) :: decodeFrom none rest := by
  have hmin : (if a = 0 then 0x90 else 0x80 : UInt8).toNat ≤ b + 0x80 := by
    split
    · simp
      omega
    · simp
  have hmax : b + 0x80 ≤ (if a = 4 then 0x8F else 0xBF : UInt8).toNat := by
    split <;> simp <;> omega
  obtain ⟨hmin', hmax'⟩ := tail_bounds hc
  obtain ⟨hmin'', hmax''⟩ := tail_bounds hd
  rw [decodeFrom_lead (by omega) (by omega) (lead?_four ha),
    decodeFrom_extend Nat.two_pos hb hmin hmax,
    decodeFrom_extend Nat.one_pos hc hmin' hmax',
    decodeFrom_complete hd hmin'' hmax'']

/-- Reading the bytes of a character gives the character, whatever follows them. -/
lemma decodeFrom_utf8EncodeChar (c : Char) (rest : Bytes) :
    decodeFrom none (String.utf8EncodeChar c ++ rest) = c :: decodeFrom none rest := by
  -- The numbers of characters leave out those of surrogates.
  have hvalid : c.toNat < 0xD800 ∨ 0xDFFF < c.toNat ∧ c.toNat < 0x110000 := c.valid
  have hchar : Char.ofNat c.toNat = c := Char.ofNat_toNat c
  rw [String.utf8EncodeChar]
  simp only [Char.toNat_val]
  generalize c.toNat = v at hvalid hchar
  split
  · next h1 =>
    rw [List.cons_append, List.nil_append, decodeFrom_one (by omega), hchar]
  split
  · next h1 h2 =>
    have hbits : v / 64 % 32 * 64 + v % 64 = v := by omega
    rw [List.cons_append, List.cons_append, List.nil_append,
      decodeFrom_two (by omega) (by omega) (by omega), hbits, hchar]
  split
  · next h1 h2 h3 =>
    have hbits : (v / 4096 % 16 * 64 + v / 64 % 64) * 64 + v % 64 = v := by omega
    rw [List.cons_append, List.cons_append, List.cons_append, List.nil_append,
      decodeFrom_three (by omega) (by omega) (by omega) (by omega) (by omega), hbits, hchar]
  · next h1 h2 h3 =>
    have hbits : ((v / 262144 % 8 * 64 + v / 4096 % 64) * 64 + v / 64 % 64) * 64 + v % 64 = v := by
      omega
    rw [List.cons_append, List.cons_append, List.cons_append, List.cons_append, List.nil_append,
      decodeFrom_four (by omega) (by omega) (by omega) (by omega) (by omega) (by omega), hbits,
      hchar]

lemma decodeFrom_flatMap (cs : List Char) :
    decodeFrom none (cs.flatMap String.utf8EncodeChar) = cs := by
  induction cs with
  | nil => rfl
  | cons c cs ih => rw [List.flatMap_cons, decodeFrom_utf8EncodeChar, ih]

/-- **Decoding the bytes of a text gives the text.** -/
theorem decode_encode (s : String) : decode (encode s) = s := by
  rw [decode, encode, decodeFrom_flatMap, String.ofList_toList]

/-! ## Cutting -/

/-- A text is the longest prefix of another that occupies at most so many bytes. -/
structure IsCut (limit : ℕ) (s t : String) : Prop where
  isPrefix : t.toList <+: s.toList
  length_le : (encode t).length ≤ limit
  longest : ∀ u : String, u.toList <+: s.toList → (encode u).length ≤ limit →
    u.toList <+: t.toList

lemma length_flatMap_cons (c : Char) (cs : List Char) :
    ((c :: cs).flatMap String.utf8EncodeChar).length =
      c.utf8Size + (cs.flatMap String.utf8EncodeChar).length := by
  rw [List.flatMap_cons, List.length_append, String.length_utf8EncodeChar]

lemma cutChars_isPrefix (limit : ℕ) (cs : List Char) : cutChars limit cs <+: cs := by
  induction cs generalizing limit with
  | nil => exact List.prefix_rfl
  | cons c cs ih =>
    rw [cutChars]
    split
    · exact (List.prefix_cons_inj c).2 (ih (limit - c.utf8Size))
    · exact List.nil_prefix

lemma length_cutChars_le (limit : ℕ) (cs : List Char) :
    ((cutChars limit cs).flatMap String.utf8EncodeChar).length ≤ limit := by
  induction cs generalizing limit with
  | nil => exact Nat.zero_le limit
  | cons c cs ih =>
    rw [cutChars]
    split
    · next hfits =>
      have hrest := ih (limit - c.utf8Size)
      rw [length_flatMap_cons]
      omega
    · exact Nat.zero_le limit

lemma prefix_cutChars {limit : ℕ} {us cs : List Char} (hfront : us <+: cs)
    (hlength : (us.flatMap String.utf8EncodeChar).length ≤ limit) : us <+: cutChars limit cs := by
  induction cs generalizing limit us with
  | nil => rwa [cutChars]
  | cons c cs ih =>
    rcases us with _ | ⟨u, us⟩
    · exact List.nil_prefix
    · obtain ⟨rfl, hrest⟩ := List.cons_prefix_cons.1 hfront
      rw [length_flatMap_cons] at hlength
      have hfits : u.utf8Size ≤ limit := by omega
      rw [cutChars, if_pos hfits, List.prefix_cons_inj]
      exact ih hrest (by omega)

lemma isCut_cut (limit : ℕ) (s : String) : IsCut limit s (cut limit s) where
  isPrefix := by
    rw [cut, String.toList_ofList]
    exact cutChars_isPrefix limit s.toList
  length_le := by
    rw [encode, cut, String.toList_ofList]
    exact length_cutChars_le limit s.toList
  longest u hfront hlength := by
    rw [cut, String.toList_ofList]
    exact prefix_cutChars hfront hlength

/-- A text that fits is not cut. -/
lemma cut_of_length_le {limit : ℕ} {s : String} (h : (encode s).length ≤ limit) :
    cut limit s = s := by
  have hcut := isCut_cut limit s
  exact String.toList_injective
    (hcut.isPrefix.eq_of_length_le (hcut.longest s List.prefix_rfl h).length_le)

@[simp] lemma cut_cut (limit : ℕ) (s : String) : cut limit (cut limit s) = cut limit s :=
  cut_of_length_le (isCut_cut limit s).length_le

end RowStore.Utf8
