import RowStore.Data.Bytes
import RowStore.Value
import RowStore.Word

/-!
# The stored form of a value

A column of type `ty` occupies `ty.width` bytes in every row.

* An integer is its two's complement, the most significant byte first.
* A text is the number of its bytes as such an integer, then the bytes, then zeros up to the
  capacity of the column.  A text that is too long is cut at the last character boundary that
  fits.

Reading is lenient where it can be: a length outside of `0 … capacity` counts as the nearer end of
that range, the bytes after the text are not looked at, and bytes that are no text are read as
`Utf8.decode` does.  All that can be wrong is that fewer bytes are left than the column needs.

Single values are read from the bytes that are there (`Value.read`).  The image of a row has a
fixed size, and where its bytes end before that, it goes on with zeros (`Value.readRow`); so only
the size decides whether there is room for a value.

Columns can have any width here.  What a machine does with a column that is too wide for it is said
by `Value.writeBounded` and `Value.readEachBounded`.
-/

namespace RowStore.Value

/-! ## Reading -/

/-- The value in the first `ty.width` bytes of `bs`; bytes that are missing at the end count as
zeros. -/
def readField (ty : ColumnType) (bs : Bytes) : Value :=
  match ty with
  | .int => .int (Word.read bs).toInt32
  | .text capacity =>
    let length := min (Word.read bs).toInt32.toInt.toNat capacity
    .text (Utf8.decode (Bytes.fit length (bs.drop ColumnType.lengthWidth)))

/-- Reads a value of type `ty` and gives the bytes after it. -/
def read (ty : ColumnType) (bs : Bytes) : Except Error (Value × Bytes) :=
  if bs.length < ty.width then .error (.io .endOfFile)
  else .ok (readField ty bs, bs.drop ty.width)

/-- Reads one value per type, however wide, from one run of bytes.  A value that cannot be read
leaves the bytes to the next. -/
def readEach : List ColumnType → Bytes → List (Except Error Value) × Bytes
  | [], bs => ([], bs)
  | ty :: types, bs =>
    match read ty bs with
    | .ok (v, rest) =>
      let (vs, rest) := readEach types rest
      (.ok v :: vs, rest)
    | .error e =>
      let (vs, rest) := readEach types bs
      (.error e :: vs, rest)

/-- Reads one value per type from the image of a row of `room` bytes, in which bytes that are
missing at the end count as zeros, and stops at the first value for which there is no room. -/
def readRow : List ColumnType → Nat → Bytes → Except Error (List Value)
  | [], _, _ => .ok []
  | ty :: types, room, bs =>
    if room < ty.width then .error (.io .endOfFile)
    else do
      let vs ← readRow types (room - ty.width) (bs.drop ty.width)
      return readField ty bs :: vs

theorem readField_append_zeros (ty : ColumnType) (count : Nat) (bs : Bytes) :
    readField ty (bs ++ List.replicate count 0) = readField ty bs := by
  cases ty with
  | int => simp only [readField, Word.read_append_zeros]
  | text capacity =>
    simp only [readField, Word.read_append_zeros, List.drop_append, List.drop_replicate,
      Bytes.fit_append_zeros]

/-- A row image reads the same whether zeros at its end are there or missing. -/
theorem readRow_append_zeros (types : List ColumnType) (room count : Nat) (bs : Bytes) :
    readRow types room (bs ++ List.replicate count 0) = readRow types room bs := by
  induction types generalizing room count bs with
  | nil => rfl
  | cons ty types ih =>
    rw [readRow, readRow, readField_append_zeros, List.drop_append, List.drop_replicate, ih]

/-! ## Writing -/

/-- The stored form of a value in a column of type `ty`, however wide it is. -/
def write (v : Value) (ty : ColumnType) : Except Error Bytes :=
  match v, ty with
  | .int n, .int => .ok (Word.bytes n.toUInt32)
  | .text s, .text capacity =>
    let payload := Utf8.encode (Utf8.cut capacity s)
    .ok (Word.bytes (UInt32.ofNat payload.length) ++ payload
      ++ List.replicate (capacity - payload.length) 0)
  | v, ty => .error (.typeMismatch ty.name v.kind)

end RowStore.Value
