import Mathlib.Data.List.Forall2
import RowStore.Proofs.Text.Utf8
import RowStore.Value.Codec

/-!
# Values survive their stored form

A column takes the values of its kind (`ColumnType.Takes`).  Such a value is written on exactly the
width of the column (`Value.length_of_write`), and what is read back is what the column keeps of it
(`Value.readField_of_write`): numbers stay as they are and texts are cut to the capacity.

The length of a text is stored as a signed word, so this needs a text whose length such a word can
hold (`ColumnType.Legible`).  Where the capacity of the column is one (`ColumnType.Bounded`), every
text of the column is of this kind.
-/

namespace RowStore

namespace ColumnType

/-- The length of every text of the column can be stored. -/
def Bounded (ty : ColumnType) : Prop := ∀ capacity, ty = .text capacity → capacity ≤ 2147483647

/-- A field is set to a value that can be stored in the column. -/
def Takes (ty : ColumnType) (field : Option Value) : Prop := ∃ v, field = some v ∧ v.fits ty = true

instance (ty : ColumnType) : DecidablePred ty.Takes
  | none => isFalse fun ⟨_, h, _⟩ => (by cases h)
  | some v => decidable_of_iff (v.fits ty = true)
      ⟨fun h => ⟨v, rfl, h⟩, fun ⟨_, h, h'⟩ => (by cases h; exact h')⟩

/-- What the column keeps of a value. -/
def keep (ty : ColumnType) (v : Value) : Value :=
  match ty, v with
  | text capacity, .text s => .text (Utf8.cut capacity s)
  | _, v => v

/-- If what the column keeps of a value is a text, its length can be stored. -/
def Legible (ty : ColumnType) (v : Value) : Prop :=
  ∀ s, ty.keep v = .text s → (Utf8.encode s).length ≤ 2147483647

/-- A field is set to a value that can be stored in the column and read back. -/
def Stores (ty : ColumnType) (field : Option Value) : Prop :=
  ∃ v, field = some v ∧ v.fits ty = true ∧ ty.Legible v

lemma Bounded.legible {ty : ColumnType} {v : Value} (hty : ty.Bounded) (h : v.fits ty = true) :
    ty.Legible v := by
  intro s hs
  cases v with
  | int n => cases ty <;> cases hs
  | text t =>
    cases ty with
    | int => cases h
    | text capacity =>
      cases hs
      exact Nat.le_trans (Utf8.isCut_cut capacity t).length_le (hty capacity rfl)

/-- A number is kept as it is, and of a text the longest prefix that fits. -/
inductive Keeps : ColumnType → Value → Value → Prop
  | int (n : Int32) : Keeps int (.int n) (.int n)
  | text {capacity : ℕ} {s t : String} (h : Utf8.IsCut capacity s t) :
    Keeps (text capacity) (.text s) (.text t)

lemma keeps_keep {ty : ColumnType} {v : Value} (h : v.fits ty = true) : ty.Keeps v (ty.keep v) := by
  cases v with
  | int n =>
    cases ty with
    | int => exact .int n
    | text capacity => cases h
  | text s =>
    cases ty with
    | int => cases h
    | text capacity => exact .text (Utf8.isCut_cut capacity s)

end ColumnType

namespace Value

variable {v : Value} {ty : ColumnType} {bytes : Bytes}

lemma write_text (s : String) (capacity : ℕ) :
    (text s).write (.text capacity) = .ok (Word.bytes (UInt32.ofNat (Utf8.encode
      (Utf8.cut capacity s)).length) ++ (Utf8.encode (Utf8.cut capacity s) ++
        List.replicate (capacity - (Utf8.encode (Utf8.cut capacity s)).length) 0)) := by
  rw [write, List.append_assoc]

lemma exists_write (h : v.fits ty = true) : ∃ bytes, v.write ty = .ok bytes := by
  cases v with
  | int n =>
    cases ty with
    | int => exact ⟨_, rfl⟩
    | text capacity => cases h
  | text s =>
    cases ty with
    | int => cases h
    | text capacity => exact ⟨_, rfl⟩

lemma length_of_write (h : v.write ty = .ok bytes) : bytes.length = ty.width := by
  cases v with
  | int n =>
    cases ty with
    | int =>
      cases h
      exact Word.length_bytes n.toUInt32
    | text capacity => cases h
  | text s =>
    cases ty with
    | int => cases h
    | text capacity =>
      have hle := (Utf8.isCut_cut capacity s).length_le
      rw [write_text] at h
      cases h
      rw [List.length_append, List.length_append, List.length_replicate, Word.length_bytes,
        Nat.add_sub_cancel' hle]
      rfl

/-- What the column keeps of a value is written as the value is. -/
lemma write_keep (v : Value) (ty : ColumnType) : (ty.keep v).write ty = v.write ty := by
  cases ty <;> cases v <;> simp [ColumnType.keep, write]

/-- A length below `2 ^ 31` is read as it was written. -/
lemma toNat_toInt_ofNat {n : ℕ} (h : n ≤ 2147483647) :
    (UInt32.ofNat n).toInt32.toInt.toNat = n := by
  have hbits : (UInt32.ofNat n).toInt32.toInt = (BitVec.ofNat 32 n).toInt := rfl
  have hnat : (BitVec.ofNat 32 n).toNat = n := by
    rw [BitVec.toNat_ofNat]
    omega
  rw [hbits, BitVec.toInt_eq_toNat_of_lt (by omega), hnat, Int.toNat_natCast]

/-- What is read is what the column keeps of what was written. -/
lemma readField_of_write (h : v.write ty = .ok bytes) (hlegible : ty.Legible v) (rest : Bytes) :
    readField ty (bytes ++ rest) = ty.keep v := by
  cases v with
  | int n =>
    cases ty with
    | int =>
      cases h
      rw [readField, Word.read_bytes_append]
      rfl
    | text capacity => cases h
  | text s =>
    cases ty with
    | int => cases h
    | text capacity =>
      have hmax := hlegible _ rfl
      rw [write_text] at h
      cases h
      generalize hpayload : Utf8.encode (Utf8.cut capacity s) = payload
      have hle : payload.length ≤ capacity := by
        rw [← hpayload]
        exact (Utf8.isCut_cut capacity s).length_le
      have hlength : min payload.length capacity = payload.length := Nat.min_eq_left hle
      rw [hpayload] at hmax
      simp only [readField, List.append_assoc, Word.read_bytes_append, toNat_toInt_ofNat hmax,
        hlength]
      have hdrop : ∀ tail : Bytes, (Word.bytes (UInt32.ofNat payload.length) ++ tail).drop
          ColumnType.lengthWidth = tail := fun tail => List.drop_left' (Word.length_bytes _)
      have hfit : ∀ tail : Bytes, Bytes.fit payload.length (payload ++ tail) = payload := by
        intro tail
        rw [Bytes.fit_of_le (by simp), List.take_left]
      rw [hdrop, hfit, ← hpayload, Utf8.decode_encode]
      rfl

end Value

end RowStore
