import RowStore.Error

/-!
# Configuration

A database is configured by the payload capacity of its pages and by the number of pages that its
buffer pool holds.  Both have to be positive, and a page has to be addressable with 32 bits.
-/

namespace RowStore

/-- The configuration of a database. -/
structure Config where
  pageSize : Nat
  poolPages : Nat
  deriving DecidableEq, Repr

namespace Config

/-- The page size for which none is chosen. -/
def standardPageSize : Nat := 4096

/-- The number of pool pages for which none is chosen. -/
def standardPoolPages : Nat := 50

/-- The configuration for which nothing is chosen. -/
def standard : Config := ⟨standardPageSize, standardPoolPages⟩

/-- The greatest page size. -/
def maxPageSize : Nat := 4294967295

/-- Accepts a configuration within its limits; the page size is looked at first. -/
def validate (c : Config) : Except Error Config :=
  if c.pageSize = 0 ∨ maxPageSize < c.pageSize then
    .error (.invalidParameter "page_size" (toString c.pageSize))
  else if c.poolPages = 0 then
    .error (.invalidParameter "buffer_pool_pages" (toString c.poolPages))
  else .ok c

/-- The number of payload bytes in a full pool. -/
def poolBytes (c : Config) : Nat := c.poolPages * c.pageSize

end Config

end RowStore
