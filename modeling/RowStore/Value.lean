import RowStore.Error
import RowStore.Text.Utf8

/-!
# Column types, values and comparisons

A value is a 32-bit integer or a text.  A column type says which of the two a column holds, and for
texts how many bytes of payload are set aside; in the stored form every column has a fixed width
(`ColumnType.width`).

Values are compared in two ways.  `Value.order` is the order of values as such: integers before
texts, integers by size, texts by their bytes.  `Value.test` evaluates one of the comparisons of a
query, which only relate values of one kind.
-/

namespace RowStore

/-! ## Column types -/

/-- What a column holds. -/
inductive ColumnType where
  | int
  | text (capacity : Nat)
  deriving DecidableEq, Hashable, Repr

namespace ColumnType

/-- The bytes that hold an integer. -/
def intWidth : Nat := 4

/-- The bytes that hold the length of a text. -/
def lengthWidth : Nat := 4

/-- The capacity of a text column for which none is chosen. -/
def standardCapacity : Nat := 128

/-- A text column of the standard capacity. -/
def standardText : ColumnType := .text standardCapacity

/-- The number of bytes that a column occupies in every row. -/
def width : ColumnType → Nat
  | int => intWidth
  | text capacity => lengthWidth + capacity

/-- The number of bytes that columns of the given types occupy side by side. -/
def totalWidth : List ColumnType → Nat
  | [] => 0
  | ty :: types => ty.width + totalWidth types

/-- The name of the kind, which leaves the capacity out. -/
def name : ColumnType → String
  | int => "INT_TYPE"
  | text _ => "STRING_TYPE"

/-- Whether a column holds texts. -/
def isText : ColumnType → Bool
  | int => false
  | text _ => true

theorem width_pos (ty : ColumnType) : 0 < ty.width := by
  cases ty with
  | int => exact Nat.succ_pos 3
  | text capacity => exact Nat.lt_of_lt_of_le (Nat.succ_pos 3) (Nat.le_add_right 4 capacity)

@[simp] theorem totalWidth_append (ts us : List ColumnType) :
    totalWidth (ts ++ us) = totalWidth ts + totalWidth us := by
  induction ts with
  | nil => simp [totalWidth]
  | cons t ts ih => simp [totalWidth, ih, Nat.add_assoc]

theorem totalWidth_replicate (n : Nat) (ty : ColumnType) :
    totalWidth (List.replicate n ty) = n * ty.width := by
  induction n with
  | zero => simp [totalWidth]
  | succ n ih => rw [List.replicate_succ, totalWidth, ih, Nat.succ_mul, Nat.add_comm]

end ColumnType

/-! ## Values -/

/-- The content of a field. -/
inductive Value where
  | int (number : Int32)
  | text (content : String)
  deriving DecidableEq, Hashable, Repr

namespace Value

/-- The name of the kind of a value, as column types print it. -/
def kind : Value → String
  | int _ => "INT_TYPE"
  | text _ => "STRING_TYPE"

/-- Whether a value can be stored in a column. -/
def fits : Value → ColumnType → Bool
  | int _, .int => true
  | text _, .text _ => true
  | _, _ => false

/-- The number held, if it is one. -/
def number? : Value → Option Int32
  | int n => some n
  | text _ => none

/-- The text held, if it is one. -/
def text? : Value → Option String
  | text s => some s
  | int _ => none

/-- A number prints in decimal and a text as it is. -/
def print : Value → String
  | int n => toString n.toInt
  | text s => s

/-- The order of values: integers before texts, integers by size, texts by their bytes. -/
def order : Value → Value → Ordering
  | int a, int b => compare a b
  | int _, text _ => .lt
  | text _, int _ => .gt
  | text s, text t => Utf8.order s t

instance : Ord Value where
  compare := order

end Value

/-! ## Comparisons -/

/-- The comparisons that a query can ask for.  `like` asks for a substring. -/
inductive Comparison where
  | eq
  | gt
  | lt
  | le
  | ge
  | like
  deriving DecidableEq, Hashable, Repr

namespace Comparison

/-- All comparisons, in the order of their numbers. -/
def all : List Comparison := [eq, gt, lt, le, ge, like]

/-- The comparison with a given number. -/
def ofIndex? (index : Nat) : Option Comparison := all[index]?

/-- The written form. -/
def symbol : Comparison → String
  | eq => "="
  | gt => ">"
  | lt => "<"
  | le => "<="
  | ge => ">="
  | like => "LIKE"

/-- The comparison of the swapped sides. -/
def converse : Comparison → Comparison
  | eq => eq
  | gt => lt
  | lt => gt
  | le => ge
  | ge => le
  | like => like

/-- A comparison of integers, where a substring can only be the whole. -/
def holdsInt (op : Comparison) (a b : Int32) : Bool :=
  match op with
  | eq | like => a = b
  | gt => b < a
  | lt => a < b
  | le => a ≤ b
  | ge => b ≤ a

/-- A comparison of texts, which are ordered by their characters. -/
def holdsText (op : Comparison) (s t : String) : Bool :=
  match op with
  | eq => s = t
  | gt => t < s
  | lt => s < t
  | le => s ≤ t
  | ge => t ≤ s
  | like => Utf8.contains s t

end Comparison

/-- Evaluates `a op b`.  Values of different kinds do not compare. -/
def Value.test (a : Value) (op : Comparison) (b : Value) : Except Error Bool :=
  match a, b with
  | .int m, .int n => .ok (op.holdsInt m n)
  | .text s, .text t => .ok (op.holdsText s t)
  | _, _ => .error (.typeMismatch a.kind b.kind)

end RowStore
