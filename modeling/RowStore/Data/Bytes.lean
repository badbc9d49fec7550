/-!
# Byte sequences

The stored form of everything is a list of bytes.  Two ways of looking at one are needed in several
places: as if it had a given length, which `Bytes.fit` gives it, and as pieces of equal size one
behind the other, which are `Bytes.pieces`.
-/

namespace RowStore

/-- A sequence of bytes: a page image, a row image or the payload of a text field. -/
abbrev Bytes := List UInt8

namespace Bytes

/-- A byte sequence cut or filled up with zeros to a given length. -/
def fit (length : Nat) (bs : Bytes) : Bytes :=
  let kept := bs.take length
  kept ++ List.replicate (length - kept.length) 0

theorem fit_eq (length : Nat) (bs : Bytes) :
    fit length bs = bs.take length ++ List.replicate (length - bs.length) 0 := by
  have h : length - min length bs.length = length - bs.length := by omega
  rw [fit, List.length_take, h]

@[simp] theorem length_fit (length : Nat) (bs : Bytes) : (fit length bs).length = length := by
  simp only [fit_eq, List.length_append, List.length_take, List.length_replicate]
  omega

/-- Nothing is filled up where nothing is missing. -/
theorem fit_of_le {length : Nat} {bs : Bytes} (h : length ≤ bs.length) :
    fit length bs = bs.take length := by
  simp [fit_eq, Nat.sub_eq_zero_of_le h]

/-- Zeros at the end make no difference. -/
theorem fit_append_zeros (length count : Nat) (bs : Bytes) :
    fit length (bs ++ List.replicate count 0) = fit length bs := by
  have h : min (length - bs.length) count + (length - (bs.length + count)) =
      length - bs.length := by
    omega
  rw [fit_eq, fit_eq, List.take_append, List.append_assoc, List.take_replicate, List.length_append,
    List.length_replicate, List.replicate_append_replicate, h]

/-- The first `count` pieces of `size` bytes each. -/
def pieces (size count : Nat) (bs : Bytes) : List Bytes :=
  go count bs []
where
  /-- Adds the pieces of the rest to those taken so far, the last of which comes first. -/
  go : Nat → Bytes → List Bytes → List Bytes
    | 0, _, taken => taken.reverse
    | n + 1, bs, taken => go n (bs.drop size) (bs.take size :: taken)

theorem go_pieces (size : Nat) : ∀ (count : Nat) (bs : Bytes) (taken : List Bytes),
    pieces.go size count bs taken =
      taken.reverse ++ (List.range count).map fun i => (bs.drop (i * size)).take size
  | 0, _, _ => by simp [pieces.go]
  | n + 1, bs, taken => by
    rw [pieces.go, go_pieces size n, List.range_succ_eq_map]
    simp [List.drop_drop, Nat.succ_mul, Nat.add_comm]

/-- The pieces lie one behind the other. -/
theorem pieces_eq (size count : Nat) (bs : Bytes) :
    pieces size count bs = (List.range count).map fun i => (bs.drop (i * size)).take size := by
  simp [pieces, go_pieces]

theorem length_pieces (size count : Nat) (bs : Bytes) : (pieces size count bs).length = count := by
  rw [pieces_eq, List.length_map, List.length_range]

theorem getElem?_pieces {size count i : Nat} (hi : i < count) (bs : Bytes) :
    (pieces size count bs)[i]? = some ((bs.drop (i * size)).take size) := by
  rw [pieces_eq, List.getElem?_map, List.getElem?_range hi, Option.map_some]

theorem pieces_succ (size count : Nat) (bs : Bytes) :
    pieces size (count + 1) bs = bs.take size :: pieces size count (bs.drop size) := by
  rw [pieces_eq, pieces_eq, List.range_succ_eq_map, List.map_cons, List.map_map, Nat.zero_mul,
    List.drop_zero]
  congr 1
  refine List.map_congr_left fun i _ => ?_
  rw [Function.comp_apply, List.drop_drop, Nat.succ_mul, Nat.add_comm]

theorem length_flatten {size : Nat} {images : List Bytes}
    (h : ∀ image ∈ images, image.length = size) : images.flatten.length = images.length * size := by
  rw [List.length_flatten, List.map_eq_replicate_iff.2 h, List.sum_replicate_nat]

/-- Byte sequences of one size that lie one behind the other are the pieces of the whole. -/
theorem pieces_flatten {size : Nat} {images : List Bytes}
    (h : ∀ image ∈ images, image.length = size) (rest : Bytes) :
    pieces size images.length (images.flatten ++ rest) = images := by
  induction images with
  | nil => rfl
  | cons image images ih =>
    have himage : image.length = size := h image List.mem_cons_self
    rw [List.length_cons, pieces_succ, List.flatten_cons, List.append_assoc,
      List.take_left' himage, List.drop_left' himage,
      ih fun other hother => h other (List.mem_cons_of_mem image hother)]

end Bytes

end RowStore
