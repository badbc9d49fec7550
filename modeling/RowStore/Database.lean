import RowStore.Catalog
import RowStore.Config
import RowStore.Pool.Basic
import RowStore.Storage

/-!
# Databases

A database is a disk with files, the tables that are registered of it, and a buffer pool through
which their pages are read.  A page that is not in the pool is loaded from the file that its table
has in the catalog at that moment.

Opening a table registers it and drops the pages of it that are in the pool, because they may have
been read under another schema.
-/

namespace RowStore

/-- The state of a database. -/
structure Database where
  config : Config
  disk : Disk
  catalog : Catalog
  pool : Pool Page

namespace Database

/-- The database on a disk, without tables. -/
def onDisk (config : Config) (disk : Disk) : Database where
  config := config
  disk := disk
  catalog := Catalog.empty
  pool := Pool.ofFrames config.poolPages

/-- The database on a disk, if the configuration is acceptable. -/
def create (config : Config) (disk : Disk) : Except Error Database := do
  return onDisk (← config.validate) disk

/-- Registers a table under a name. -/
def addTable (db : Database) (file : HeapFile) (name : String) : Database :=
  { db with catalog := db.catalog.add file name }

/-- Opens a file as a table and registers it; pages of the table in the pool are dropped. -/
def openTable (db : Database) (file : String) (schema : Schema) (name : String) :
    Except Error HeapFile × Database :=
  match HeapFile.openNamed db.disk file schema db.config.pageSize with
  | .error e => (.error e, db)
  | .ok table =>
    let db := db.addTable table name
    (.ok table, { db with pool := (db.pool.discardTable table.id).2 })

/-- What a page holds according to the file that its table has in the catalog. -/
def loadPage (db : Database) (page : PageId) : Except Error Page := do
  (← db.catalog.heapFile page.table).readPage db.disk page

/-- Requests a page through the pool, however large it is; see `Database.Checked`. -/
def getPage (db : Database) (page : PageId) : Except Error (Handle Page) × Database :=
  let (answer, pool) := db.pool.getOrLoad page fun _ => db.loadPage page
  (answer, { db with pool := pool })

/-- Gives a handle back to the pool. -/
def release (db : Database) (h : Handle Page) : Database :=
  { db with pool := db.pool.release h }

instance : Storage Database where
  heapFile table db := db.catalog.heapFile table
  pageCount file db := file.pageCount db.disk
  request page _ db := db.getPage page
  release h db := db.release h

end Database

end RowStore
