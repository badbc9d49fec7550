import RowStore.Data.Bytes

/-!
# Byte sequences with long runs of zeros

A file can be far longer than what was ever written to it, because one that is lengthened goes on
with zeros.  `SparseBytes` keeps its content as stretches one behind the other, each of them either
bytes that are written down or zeros that are only counted, so that a length costs nothing and a
part can be read without the rest.

What a sequence holds is `SparseBytes.toList`, and one equation per operation says what becomes of
it.  How the sequence is divided into stretches shows nowhere else.
-/

namespace RowStore

/-! ## Stretches -/

/-- A stretch of a byte sequence: bytes that are written down, or so many zeros. -/
inductive Stretch where
  | written (bytes : Array UInt8)
  | zeros (count : Nat)

namespace Stretch

/-- The bytes of a stretch. -/
def toList : Stretch → Bytes
  | .written bytes => bytes.toList
  | .zeros count => List.replicate count 0

/-- The number of bytes in a stretch. -/
def length : Stretch → Nat
  | .written bytes => bytes.size
  | .zeros count => count

/-- The stretch cut to a length. -/
def take (limit : Nat) : Stretch → Stretch
  | .written bytes => .written (bytes.extract 0 limit)
  | .zeros count => .zeros (min limit count)

/-- At most `count` bytes from a position on. -/
def slice (first count : Nat) : Stretch → Bytes
  | .written bytes => (bytes.extract first (first + count)).toList
  | .zeros total => List.replicate (min count (total - first)) 0

theorem length_toList (s : Stretch) : s.toList.length = s.length := by
  cases s <;> simp [toList, length]

theorem toList_take (limit : Nat) (s : Stretch) : (s.take limit).toList = s.toList.take limit := by
  cases s <;> simp [toList, take]

theorem slice_eq (first count : Nat) (s : Stretch) :
    s.slice first count = (s.toList.drop first).take count := by
  cases s with
  | written bytes => simp [toList, slice]
  | zeros total => simp [toList, slice]

end Stretch

/-! ## Sequences -/

/-- A byte sequence, as stretches one behind the other. -/
structure SparseBytes where
  stretches : List Stretch

namespace SparseBytes

/-- The bytes of a sequence. -/
def toList (c : SparseBytes) : Bytes := c.stretches.flatMap Stretch.toList

/-- The sequence of the given bytes. -/
def ofList (bs : Bytes) : SparseBytes := ⟨[.written bs.toArray]⟩

/-- The sequence without bytes. -/
def empty : SparseBytes := ⟨[]⟩

instance : EmptyCollection SparseBytes := ⟨empty⟩

/-- The number of bytes in stretches. -/
def lengthIn : List Stretch → Nat
  | [] => 0
  | s :: rest => s.length + lengthIn rest

/-- The number of bytes in a sequence. -/
def length (c : SparseBytes) : Nat := lengthIn c.stretches

/-- The sequence followed by the given bytes. -/
def append (c : SparseBytes) (bs : Bytes) : SparseBytes :=
  ⟨c.stretches ++ [.written bs.toArray]⟩

/-- Stretches cut to a length. -/
def takeIn : Nat → List Stretch → List Stretch
  | _, [] => []
  | limit, s :: rest => s.take limit :: takeIn (limit - s.length) rest

/-- The sequence cut or filled up with zeros to a given length. -/
def fit (length : Nat) (c : SparseBytes) : SparseBytes :=
  ⟨takeIn length c.stretches ++ [.zeros (length - c.length)]⟩

/-- At most `count` bytes of stretches from a position on. -/
def sliceIn : Nat → Nat → List Stretch → Bytes
  | _, _, [] => []
  | first, count, s :: rest =>
    let here := s.slice first count
    here ++ sliceIn (first - s.length) (count - here.length) rest

/-- At most `count` bytes from a position on; at the end of the sequence there are fewer. -/
def slice (first count : Nat) (c : SparseBytes) : Bytes := sliceIn first count c.stretches

/-! ## What the operations do -/

@[simp] theorem toList_ofList (bs : Bytes) : (ofList bs).toList = bs := by
  simp [toList, ofList, Stretch.toList]

@[simp] theorem toList_empty : (∅ : SparseBytes).toList = [] := rfl

theorem length_flatMap_toList (ss : List Stretch) :
    (ss.flatMap Stretch.toList).length = lengthIn ss := by
  induction ss with
  | nil => rfl
  | cons s rest ih =>
    rw [List.flatMap_cons, List.length_append, Stretch.length_toList, ih, lengthIn]

@[simp] theorem length_toList (c : SparseBytes) : c.toList.length = c.length :=
  length_flatMap_toList c.stretches

@[simp] theorem toList_append (c : SparseBytes) (bs : Bytes) :
    (c.append bs).toList = c.toList ++ bs := by
  simp [toList, append, Stretch.toList]

theorem flatMap_toList_takeIn (limit : Nat) (ss : List Stretch) :
    (takeIn limit ss).flatMap Stretch.toList = (ss.flatMap Stretch.toList).take limit := by
  induction ss generalizing limit with
  | nil => simp [takeIn]
  | cons s rest ih =>
    rw [takeIn, List.flatMap_cons, List.flatMap_cons, List.take_append, Stretch.toList_take, ih,
      Stretch.length_toList]

@[simp] theorem toList_fit (length : Nat) (c : SparseBytes) :
    (c.fit length).toList = Bytes.fit length c.toList := by
  rw [toList, fit, List.flatMap_append, flatMap_toList_takeIn, Bytes.fit_eq, length_toList]
  simp [toList, Stretch.toList]

theorem sliceIn_eq (first count : Nat) (ss : List Stretch) :
    sliceIn first count ss = ((ss.flatMap Stretch.toList).drop first).take count := by
  induction ss generalizing first count with
  | nil => simp [sliceIn]
  | cons s rest ih =>
    rw [sliceIn, List.flatMap_cons, List.drop_append, List.take_append, ih, Stretch.slice_eq,
      Stretch.length_toList, List.length_take]
    congr 2
    omega

theorem slice_eq (first count : Nat) (c : SparseBytes) :
    c.slice first count = (c.toList.drop first).take count :=
  sliceIn_eq first count c.stretches

end SparseBytes

end RowStore
