import RowStore.HeapFile.Basic

/-!
# The catalog

The catalog knows the tables of a database: under the id of each its heap file and the name it was
registered with, and under each name an id.  A name that is registered again moves to the new
table, and an id that is registered again gets the new file and name, while the old name is given
up if it still leads to it.
-/

namespace RowStore

/-- A registered table. -/
structure CatalogEntry where
  file : HeapFile
  name : String
  deriving DecidableEq

/-- The registered tables and the names that lead to them. -/
structure Catalog where
  tables : Assoc TableId CatalogEntry
  names : Assoc String TableId

namespace Catalog

/-- The catalog without tables. -/
def empty : Catalog := ⟨∅, ∅⟩

/-- The names after the entry of a table is replaced under another name. -/
def retire (c : Catalog) (id : TableId) (name : String) : Assoc String TableId :=
  match c.tables.find? id with
  | some previous =>
    if previous.name ≠ name ∧ c.names.find? previous.name = some id then
      c.names.erase previous.name
    else c.names
  | none => c.names

/-- Registers a table under a name. -/
def add (c : Catalog) (file : HeapFile) (name : String) : Catalog where
  tables := c.tables.insert file.id ⟨file, name⟩
  names := (c.retire file.id name).insert name file.id

/-- The table that a name leads to. -/
def tableId (c : Catalog) (name : String) : Except Error TableId :=
  match c.names.find? name with
  | some id => .ok id
  | none => .error (.tableNotFound name)

/-- The entry of a table. -/
def entry (c : Catalog) (id : TableId) : Except Error CatalogEntry :=
  match c.tables.find? id with
  | some e => .ok e
  | none => .error (.tableNotFound id.text)

/-- The heap file of a table. -/
def heapFile (c : Catalog) (id : TableId) : Except Error HeapFile :=
  (c.entry id).map CatalogEntry.file

/-- The schema of a table. -/
def schema (c : Catalog) (id : TableId) : Except Error Schema :=
  (c.heapFile id).map HeapFile.schema

/-- The name that a table was registered with last. -/
def tableName (c : Catalog) (id : TableId) : Except Error String :=
  (c.entry id).map CatalogEntry.name

theorem heapFile_add (c : Catalog) (file : HeapFile) (name : String) (id : TableId) :
    (c.add file name).heapFile id = if file.id = id then .ok file else c.heapFile id := by
  by_cases h : file.id = id <;> simp [heapFile, entry, add, h, Except.map]

/-- The ids of all tables. -/
def ids (c : Catalog) : List TableId := c.tables.keys

/-- The number of tables. -/
def size (c : Catalog) : Nat := c.tables.size

end Catalog

end RowStore
