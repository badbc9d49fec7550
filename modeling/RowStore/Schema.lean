import RowStore.Value

/-!
# Schemas

A schema lists the columns of a row.  It has at least one (`Schema.nonempty`).  A column has a type
and may have a name; names need not differ.

Two schemas have the same *shape* if their types agree in order, whatever the columns are called.
Rows move between schemas of one shape, so the shape is what is compared where a row is stored or
a table is scanned.
-/

namespace RowStore

/-- A column: its type, and its name if it has one. -/
structure Column where
  type : ColumnType
  name : Option String
  deriving DecidableEq, Repr

/-- The text that stands for an absent name, alias or value. -/
def absentText : String := "null"

/-- The error about a field of a column that would have to be set. -/
def ColumnType.unsetError (ty : ColumnType) : Error :=
  .typeMismatch ty.name absentText

/-- A column prints as its type with its name in parentheses. -/
def Column.text (c : Column) : String :=
  c.type.name ++ "(" ++ c.name.getD absentText ++ ")"

/-- The columns of a row, in order. -/
structure Schema where
  columns : List Column
  nonempty : columns ≠ []
  deriving DecidableEq, Repr

namespace Schema

/-- The schema with the given columns, of which there has to be one. -/
def ofColumns (columns : List Column) : Except Failure Schema :=
  if h : columns = [] then .error (.violation .emptySchema) else .ok ⟨columns, h⟩

/-- The number of columns. -/
def width (s : Schema) : Nat := s.columns.length

/-- The types of the columns, which is all that storage depends on. -/
def shape (s : Schema) : List ColumnType := s.columns.map Column.type

/-- The number of bytes that a row occupies. -/
def byteSize (s : Schema) : Nat := ColumnType.totalWidth s.shape

/-- The column at a position. -/
def column (s : Schema) (index : Nat) : Except Error Column :=
  match s.columns[index]? with
  | some c => .ok c
  | none => .error (.columnOutOfRange index s.width)

/-- The type of the column at a position. -/
def typeAt (s : Schema) (index : Nat) : Except Error ColumnType :=
  (s.column index).map Column.type

/-- The name of the column at a position. -/
def nameAt (s : Schema) (index : Nat) : Except Error (Option String) :=
  (s.column index).map Column.name

/-- The position of the first column of the given name. -/
def indexOf (s : Schema) (name : String) : Except Error Nat :=
  match s.columns.findIdx? fun c => c.name == some name with
  | some index => .ok index
  | none => .error (.columnNotFound name)

/-- A schema prints as the list of its columns. -/
def text (s : Schema) : String :=
  ", ".intercalate (s.columns.map Column.text)

/-- The columns of one schema followed by those of another. -/
def append (s t : Schema) : Schema :=
  ⟨s.columns ++ t.columns, by simp [s.nonempty]⟩

/-- The schema of the same shape whose names are computed from the old ones. -/
def rename (s : Schema) (f : Option String → Option String) : Schema :=
  ⟨s.columns.map fun c => { c with name := f c.name }, by simp [s.nonempty]⟩

/-! ## Shapes -/

@[simp] theorem length_shape (s : Schema) : s.shape.length = s.width := by
  simp [shape, width]

@[simp] theorem shape_append (s t : Schema) : (s.append t).shape = s.shape ++ t.shape := by
  simp [shape, append]

@[simp] theorem shape_rename (s : Schema) (f : Option String → Option String) :
    (s.rename f).shape = s.shape := by
  simp [shape, rename]

/-- A row occupies at least one byte. -/
theorem byteSize_pos (s : Schema) : 0 < s.byteSize := by
  obtain ⟨columns, h⟩ := s
  cases columns with
  | nil => exact absurd rfl h
  | cons c cs =>
    have := c.type.width_pos
    simp only [byteSize, shape, List.map_cons, ColumnType.totalWidth]
    omega

end Schema

end RowStore
