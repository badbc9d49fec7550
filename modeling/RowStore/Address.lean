/-!
# Addresses

A table is known by an id, a page by its table and its number in the table's file, and a record by
its page and the slot it occupies there.  The widths are those of the stored form: pages are
counted in 32 bits and slots in 16.

Addresses print as their parts, from the outermost in, with colons between them.
-/

namespace RowStore

/-- The identity of a table, a digest of the canonical path of its file. -/
structure TableId where
  value : UInt64
  deriving DecidableEq, Hashable, Repr

/-- The identity of a page: the table and the position of the page in its file. -/
structure PageId where
  table : TableId
  number : UInt32
  deriving DecidableEq, Hashable, Repr

/-- The identity of a record: the page and the slot that holds it. -/
structure RecordId where
  page : PageId
  slot : UInt16
  deriving DecidableEq, Hashable, Repr

/-- The identity of a transaction. -/
structure TransactionId where
  value : UInt64
  deriving DecidableEq, Hashable, Repr

/-- What a page is requested for. -/
inductive Access where
  | readOnly
  | readWrite
  deriving DecidableEq, Repr

/-- A table id prints as its decimal value. -/
def TableId.text (t : TableId) : String :=
  toString t.value.toNat

/-- A page id prints as table and page number. -/
def PageId.text (p : PageId) : String :=
  p.table.text ++ ":" ++ toString p.number.toNat

/-- A record id prints as its page and slot. -/
def RecordId.text (r : RecordId) : String :=
  r.page.text ++ ":" ++ toString r.slot.toNat

/-- A transaction id prints with a tag in front. -/
def TransactionId.text (t : TransactionId) : String :=
  "txn:" ++ toString t.value.toNat

/-- An access prints in capitals. -/
def Access.text : Access → String
  | .readOnly => "READ_ONLY"
  | .readWrite => "READ_WRITE"

end RowStore
