import RowStore.Config
import RowStore.Json.Reader
import RowStore.Value

/-!
# Records as JSON

The written form of addresses, column types, accesses and configurations.

* A number is a natural number that fits the width of its type.
* A record is an object with its fields under their names.  It may also be given as an array with
  the fields in order.  Members of other names are ignored, but a field must not be given twice,
  and every key has to be a text.
* A choice is the name of the alternative, or an object with that name as its only key, which holds
  the content of the alternative, or null if there is none.

The fields of a configuration have standard values, so they may be left out, in an array from the
end.
-/

namespace RowStore

namespace JsonValue

/-! ## Records and choices -/

/-- The value under a key, at most one of which may be there.  The outer option says whether the
object is in order, and the inner one whether the key is there. -/
def member? (members : List (JsonString × JsonValue)) (name : String) :
    Option (Option JsonValue) :=
  match members.filter fun (key, _) => JsonString.text? key == some name with
  | [] => some none
  | [(_, v)] => some (some v)
  | _ => none

/-- The fields of a record with the given names, as far as they are there. -/
def fields? (names : List String) : JsonValue → Option (List (Option JsonValue))
  | array items =>
    if items.length ≤ names.length then
      some (items.map some ++ List.replicate (names.length - items.length) none)
    else none
  | object members =>
    if members.all fun (key, _) => (JsonString.text? key).isSome then names.mapM (member? members)
    else none
  | _ => none

/-- The name of the alternative that a document chooses, and its content. -/
def choice? : JsonValue → Option (String × Option JsonValue)
  | string s => (JsonString.text? s).map fun name => (name, none)
  | object [(key, v)] => (JsonString.text? key).map fun name => (name, some v)
  | _ => none

/-- Whether a choice has no content. -/
def isBare : Option JsonValue → Bool
  | none | some null => true
  | _ => false

end JsonValue

open JsonValue

/-! ## Addresses -/

/-- A table id is written as its number. -/
def TableId.toJson (t : TableId) : JsonValue := .ofNat t.value.toNat

/-- Reads a table id. -/
def TableId.ofJson? (v : JsonValue) : Option TableId :=
  (v.word? 64).map fun n => ⟨UInt64.ofNat n⟩

/-- A page id is written as a record. -/
def PageId.toJson (p : PageId) : JsonValue :=
  .ofMembers [("table_id", p.table.toJson), ("page_num", .ofNat p.number.toNat)]

/-- Reads a page id. -/
def PageId.ofJson? (v : JsonValue) : Option PageId := do
  match ← v.fields? ["table_id", "page_num"] with
  | [some table, some number] =>
    return ⟨← TableId.ofJson? table, UInt32.ofNat (← number.word? 32)⟩
  | _ => none

/-- A record id is written as a record. -/
def RecordId.toJson (r : RecordId) : JsonValue :=
  .ofMembers [("page_id", r.page.toJson), ("slot", .ofNat r.slot.toNat)]

/-- Reads a record id. -/
def RecordId.ofJson? (v : JsonValue) : Option RecordId := do
  match ← v.fields? ["page_id", "slot"] with
  | [some page, some slot] =>
    return ⟨← PageId.ofJson? page, UInt16.ofNat (← slot.word? 16)⟩
  | _ => none

/-- A transaction id is written as its number. -/
def TransactionId.toJson (t : TransactionId) : JsonValue := .ofNat t.value.toNat

/-- Reads a transaction id. -/
def TransactionId.ofJson? (v : JsonValue) : Option TransactionId :=
  (v.word? 64).map fun n => ⟨UInt64.ofNat n⟩

/-! ## Choices -/

/-- An access is written as its name. -/
def Access.toJson : Access → JsonValue
  | readOnly => .ofText "ReadOnly"
  | readWrite => .ofText "ReadWrite"

/-- Reads an access. -/
def Access.ofJson? (v : JsonValue) : Option Access := do
  let (name, content) ← v.choice?
  if !isBare content then none
  else if name = "ReadOnly" then some readOnly
  else if name = "ReadWrite" then some readWrite
  else none

/-- A column type is written as its name, with the capacity of a text column. -/
def ColumnType.toJson : ColumnType → JsonValue
  | int => .ofText "Int"
  | text capacity => .ofMembers [("String", .ofNat capacity)]

/-- Reads a column type. -/
def ColumnType.ofJson? (v : JsonValue) : Option ColumnType := do
  let (name, content) ← v.choice?
  if name = "Int" ∧ isBare content then some int
  else if name = "String" then
    return text (← (← content).word? 64)
  else none

/-! ## Configurations -/

namespace Config

/-- A configuration is written as a record. -/
def toJson (c : Config) : JsonValue :=
  .ofMembers [("page_size", .ofNat c.pageSize), ("buffer_pool_pages", .ofNat c.poolPages)]

/-- Reads a number, with a standard value if it is not there. -/
def sizeOf? (standard : Nat) : Option JsonValue → Option Nat
  | none => some standard
  | some v => v.word? 64

/-- Reads a configuration, which need not be acceptable. -/
def ofJson? (v : JsonValue) : Option Config := do
  match ← v.fields? ["page_size", "buffer_pool_pages"] with
  | [pageSize, poolPages] =>
    return ⟨← sizeOf? standardPageSize pageSize, ← sizeOf? standardPoolPages poolPages⟩
  | _ => none

/-- Reads a document and accepts the configuration in it. -/
def parse (text : String) : Except Error Config :=
  match (JsonValue.parse? text).bind ofJson? with
  | some c => c.validate
  | none => .error (.configuration "the document is no configuration")

end Config

end RowStore
