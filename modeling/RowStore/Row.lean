import RowStore.Schema

/-!
# Rows

A row is a list of fields under a schema.  A field is unset or holds a value; whether the value
fits its column is for the one who stores the row to check.  A row that was read from a page knows
its record id.

A row prints as its fields with tabs between them and a newline at the end.
-/

namespace RowStore

/-- The fields of a row, its schema, and where it is stored if it is. -/
structure Row where
  schema : Schema
  fields : List (Option Value)
  recordId : Option RecordId
  deriving DecidableEq, Repr

namespace Row

/-- The row whose fields are all unset. -/
def unset (schema : Schema) : Row :=
  ⟨schema, List.replicate schema.width none, none⟩

/-- The row that holds one value per column. -/
def ofValues (schema : Schema) (values : List Value) : Except Failure Row :=
  if values.length = schema.width then .ok ⟨schema, values.map some, none⟩
  else .error (.violation (.rowWidth schema.width values.length))

/-- The number of fields. -/
def width (r : Row) : Nat := r.fields.length

/-- The fields of one row followed by those of another, under a schema with as many columns. -/
def append (schema : Schema) (left right : Row) : Except Failure Row :=
  if left.width + right.width = schema.width then
    .ok ⟨schema, left.fields ++ right.fields, none⟩
  else .error (.violation (.rowWidth schema.width (left.width + right.width)))

/-- The field at a position of the row. -/
def get (r : Row) (index : Nat) : Except Failure (Option Value) :=
  match r.fields[index]? with
  | some field => .ok field
  | none => .error (.violation (.fieldOutOfRange index r.width))

/-- Sets the field at a position of the row. -/
def set (r : Row) (index : Nat) (v : Value) : Except Failure Row :=
  if index < r.width then .ok { r with fields := r.fields.set index (some v) }
  else .error (.violation (.fieldOutOfRange index r.width))

/-- A field prints as its value. -/
def fieldText : Option Value → String
  | some v => v.print
  | none => absentText

/-- The printed form of a row. -/
def print (r : Row) : String :=
  "\t".intercalate (r.fields.map fieldText) ++ "\n"

end Row

/-- The order of fields: an unset one comes before every value. -/
def fieldOrder : Option Value → Option Value → Ordering
  | none, none => .eq
  | none, some _ => .lt
  | some _, none => .gt
  | some a, some b => a.order b

/-- Rows ordered by their fields, from left to right. -/
def Row.order (r s : Row) : Ordering :=
  go r.fields s.fields
where
  /-- The order of two lists of fields. -/
  go : List (Option Value) → List (Option Value) → Ordering
    | [], [] => .eq
    | [], _ :: _ => .lt
    | _ :: _, [] => .gt
    | a :: as, b :: bs => (fieldOrder a b).then (go as bs)

end RowStore
