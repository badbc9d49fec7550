import RowStore.HeapFile.Basic
import RowStore.Pool.Frame

/-!
# Where scans get their pages from

A scan sees the world through four questions: which heap file a table has, how many pages a heap
file has, and, with a handle that has to be given back, what a page holds.  Everything that reads
tables is written against these questions only, so that it can be run on a database, on files
without a cache, or on a world whose requests fail at will.
-/

namespace RowStore

/-- The questions that scans put to a world of type `W`. -/
class Storage (W : Type) where
  /-- The heap file that a table has at present. -/
  heapFile : TableId → W → Except Error HeapFile
  /-- The number of pages that a heap file has at present. -/
  pageCount : HeapFile → W → Except Error Nat
  /-- Requests a page; the handle in the answer is out until it is given back. -/
  request : PageId → Access → W → Except Error (Handle Page) × W
  /-- Gives a handle back. -/
  release : Handle Page → W → W

end RowStore
