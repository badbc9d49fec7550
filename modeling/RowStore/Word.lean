import RowStore.Data.Bytes

/-!
# Words of four bytes

Lengths, integers and slot bitmaps are stored as 32-bit words, the most significant byte first.
`Word.read_bytes_append` and `Word.bytes_read` say that the two directions undo each other.
-/

namespace RowStore.Word

/-- The bytes of a word, the most significant first. -/
def bytes (w : UInt32) : Bytes :=
  let n := w.toNat
  [UInt8.ofNat (n / 16777216), UInt8.ofNat (n / 65536), UInt8.ofNat (n / 256), UInt8.ofNat n]

/-- The word that starts a byte sequence; bytes that are missing at the end count as zeros. -/
def read (bs : Bytes) : UInt32 :=
  UInt32.ofNat ((Bytes.fit 4 bs).foldl (fun n b => n * 256 + b.toNat) 0)

@[simp] theorem length_bytes (w : UInt32) : (bytes w).length = 4 := rfl

theorem read_append_zeros (count : Nat) (bs : Bytes) :
    read (bs ++ List.replicate count 0) = read bs := by
  rw [read, Bytes.fit_append_zeros, read]

/-- Reading the bytes of a word gives the word, whatever follows them. -/
theorem read_bytes_append (w : UInt32) (rest : Bytes) : read (bytes w ++ rest) = w := by
  apply UInt32.toNat_inj.mp
  have h := w.toNat_lt
  simp only [read, Bytes.fit, bytes, List.cons_append, List.nil_append, List.take_succ_cons,
    List.take_zero, List.length_cons, List.length_nil, List.replicate_zero, List.append_nil,
    List.foldl_cons, List.foldl_nil, UInt32.toNat_ofNat', UInt8.toNat_ofNat', Nat.sub_self,
    Nat.zero_add, Nat.reduceAdd]
  omega

theorem read_bytes (w : UInt32) : read (bytes w) = w := by
  have h := read_bytes_append w []
  rwa [List.append_nil] at h

/-- Four bytes are the bytes of the word they form. -/
theorem bytes_read (a b c d : UInt8) (rest : Bytes) :
    bytes (read (a :: b :: c :: d :: rest)) = [a, b, c, d] := by
  have ha := a.toNat_lt
  have hb := b.toNat_lt
  have hc := c.toNat_lt
  have hd := d.toNat_lt
  simp only [read, Bytes.fit, bytes, List.take_succ_cons, List.take_zero, List.length_cons,
    List.length_nil, List.replicate_zero, List.append_nil, List.foldl_cons, List.foldl_nil,
    UInt32.toNat_ofNat', List.cons.injEq, and_true, Nat.sub_self, Nat.zero_add, Nat.reduceAdd]
  refine ⟨?_, ?_, ?_, ?_⟩ <;>
    (apply UInt8.toNat_inj.mp; simp only [UInt8.toNat_ofNat']; omega)

end RowStore.Word
