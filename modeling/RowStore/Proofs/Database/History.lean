import RowStore.Bounded
import RowStore.Proofs.Pool.Loading
import RowStore.Proofs.Query.Lockstep

/-!
# What happens to a database

Clients of a database open tables, register files that they opened themselves, request pages and
give them back, discard pages, forget the catalog, and make scans of which each call makes requests;
and other programs change the files.  These are the events of a history (`Database.Event`).  A file
that clients register can have pages of any size that a machine can hold; requests for larger ones
do not return (`Page.decodeBounded`), and nothing comes after them.

Which pages a scan requests in a call is not written down anew: the call is run in a world that
takes a note of every request (`Watched`), where it does the same as in the database itself, since
it cannot tell the two apart (`Watched.lockstep`).  For the same reason a property of a database
that requests and the giving back of handles keep is kept by every call on a scan
(`Storage.Closed.act_file` and `Storage.Closed.act_table`).

What an event can do is said once (`Database.outcome`): it opens or registers a table, forgets all
tables or changes the files, or else it only concerns the pool, and what is resident afterwards was
there before or has just been loaded.
-/

namespace RowStore

variable {V W σ α : Type}

/-! ## Calls on scans -/

/-- A call on a cursor. -/
inductive Cursor.Act where
  | start
  | hasNext
  | next
  | rewind
  | close

/-- What a call leaves behind. -/
def Cursor.act (c : Cursor W σ) : Cursor.Act → σ → W → σ × W
  | .start, s, w => (c.start s w).2
  | .hasNext, s, w => (c.hasNext s w).2
  | .next, s, w => (c.next s w).2
  | .rewind, s, w => (c.rewind s w).2
  | .close, s, w => c.close s w

namespace Lockstep

variable [Storage V] [Storage W] {L : Lockstep V W}

/-- If nothing can break, two computations that agree leave the same behind. -/
lemma Agrees.snd {result : Except Failure α × σ × V} {result' : Except Failure α × σ × W}
    (h : L.Agrees result result') (hsure : ∀ e x, ¬ L.Broken e x) :
    result.2.1 = result'.2.1 ∧ L.Rel result.2.2 result'.2.2 := by
  obtain ⟨answer, s, x, y, rfl, rfl, hxy⟩ | ⟨e, s, x, -, he⟩ := h
  · exact ⟨rfl, hxy⟩
  · exact absurd he (hsure e x)

lemma act_file (hsure : ∀ e x, ¬ L.Broken e x) (call : Cursor.Act) (s : FileScan) {x : V} {y : W}
    (hxy : L.Rel x y) :
    (FileScan.cursor.act call s x).1 = (FileScan.cursor.act call s y).1 ∧
      L.Rel (FileScan.cursor.act call s x).2 (FileScan.cursor.act call s y).2 := by
  cases call with
  | start => exact (start_file s x y hxy).snd hsure
  | hasNext => exact (hasNext_file s x y hxy).snd hsure
  | next => exact (next_file s x y hxy).snd hsure
  | rewind => exact (cursors_file.rewind s x y hxy).snd hsure
  | close => exact ⟨rfl, letGo_scan hxy⟩

lemma act_table (hsure : ∀ e x, ¬ L.Broken e x) (t : TableScan) (call : Cursor.Act)
    (s : Option FileScan) {x : V} {y : W} (hxy : L.Rel x y) :
    (t.cursor.act call s x).1 = (t.cursor.act call s y).1 ∧
      L.Rel (t.cursor.act call s x).2 (t.cursor.act call s y).2 := by
  cases call with
  | start => exact (start_table t s x y hxy).snd hsure
  | hasNext => exact ((cursors_table t).hasNext s x y hxy).snd hsure
  | next => exact ((cursors_table t).next s x y hxy).snd hsure
  | rewind => exact ((cursors_table t).rewind s x y hxy).snd hsure
  | close =>
    rcases s with _ | scan
    · exact ⟨rfl, hxy⟩
    · exact ⟨rfl, letGo_scan hxy⟩

end Lockstep

/-! ## Taking notes -/

/-- A world that takes a note of every request: for which page, and in which state of the world it
was made.  Before a request, others may do something. -/
structure Watched (W : Type) where
  world : W
  /-- What others do before each request. -/
  meanwhile : ℕ → W → W
  requests : List (PageId × W)

namespace Watched

/-- Before the first request, with nobody else. -/
def of (w : W) : Watched W := ⟨w, fun _ => id, []⟩

instance [Storage W] : Storage (Watched W) where
  heapFile table w := Storage.heapFile table w.world
  pageCount file w := Storage.pageCount file w.world
  request page access w :=
    let before := w.meanwhile w.requests.length w.world
    let (answer, world) := Storage.request page access before
    (answer, { w with world := world, requests := w.requests ++ [(page, before)] })
  release h w := { w with world := Storage.release h w.world }

variable [Storage W]

/-- Taking notes makes no difference, if nobody else does anything. -/
def lockstep : Lockstep (Watched W) W where
  Rel x w := x.world = w ∧ x.meanwhile = fun _ => id
  Broken _ _ := False
  heapFile_eq := by
    rintro x _ ⟨rfl, -⟩ table
    rfl
  pageCount_eq := by
    rintro x _ ⟨rfl, -⟩ file
    rfl
  request := by
    rintro ⟨world, meanwhile, requests⟩ _ ⟨rfl, rfl⟩ page
    exact .inl ⟨_, _, _, rfl, rfl, rfl, rfl⟩
  release := by
    rintro x _ ⟨rfl, hnobody⟩ h
    exact ⟨rfl, hnobody⟩
  broken_release h _ := h

lemma world_act_file (call : Cursor.Act) (s : FileScan) (w : W) :
    (FileScan.cursor.act call s (Watched.of w)).2.world = (FileScan.cursor.act call s w).2 :=
  (Lockstep.act_file (L := lockstep) (fun _ _ h => h) call s ⟨rfl, rfl⟩).2.1

lemma world_act_table (t : TableScan) (call : Cursor.Act) (s : Option FileScan) (w : W) :
    (t.cursor.act call s (Watched.of w)).2.world = (t.cursor.act call s w).2 :=
  (Lockstep.act_table (L := lockstep) (fun _ _ h => h) t call s ⟨rfl, rfl⟩).2.1

end Watched

/-- A property of worlds that requests and the giving back of handles keep. -/
structure Storage.Closed [Storage W] (P : W → Prop) : Prop where
  request : ∀ {w}, P w → ∀ page, P (Storage.request page .readOnly w).2
  release : ∀ {w}, P w → ∀ h, P (Storage.release h w)

namespace Storage.Closed

variable [Storage W] {P : W → Prop} (hP : Storage.Closed P)

/-- A world with the property, in step with itself. -/
def lockstep : Lockstep W W where
  Rel x y := x = y ∧ P x
  Broken _ _ := False
  heapFile_eq := by
    rintro x _ ⟨rfl, -⟩ table
    rfl
  pageCount_eq := by
    rintro x _ ⟨rfl, -⟩ file
    rfl
  request := by
    rintro x _ ⟨rfl, hx⟩ page
    exact .inl ⟨_, _, _, rfl, rfl, rfl, hP.request hx page⟩
  release := by
    rintro x _ ⟨rfl, hx⟩ h
    exact ⟨rfl, hP.release hx h⟩
  broken_release h _ := h

include hP

lemma letGo (s : FileScan) {w : W} (hw : P w) : P (s.letGo w) := by
  obtain ⟨file, _ | ⟨pageCount, nextPage, _ | ⟨h, rows⟩, ahead⟩⟩ := s
  · exact hw
  · exact hw
  · exact hP.release hw h

lemma act_file (call : Cursor.Act) (s : FileScan) {w : W} (hw : P w) :
    P (FileScan.cursor.act call s w).2 :=
  (Lockstep.act_file (L := hP.lockstep) (fun _ _ h => h) call s ⟨rfl, hw⟩).2.2

lemma act_table (t : TableScan) (call : Cursor.Act) (s : Option FileScan) {w : W} (hw : P w) :
    P (t.cursor.act call s w).2 :=
  (Lockstep.act_table (L := hP.lockstep) (fun _ _ h => h) t call s ⟨rfl, hw⟩).2.2

end Storage.Closed

namespace Database

/-! ## Events -/

/-- What can happen to a database. -/
inductive Event where
  /-- A file is opened as a table with a schema and a name. -/
  | openTable (file : String) (schema : Schema) (name : String)
  /-- A heap file is registered under a name; pages that are resident stay so. -/
  | addTable (file : HeapFile) (held : file.layout.Held) (name : String)
  /-- A page is requested. -/
  | getPage (page : PageId)
  /-- A handle is given back. -/
  | release (h : Handle Page)
  /-- A page is discarded. -/
  | discardPage (page : PageId)
  /-- The pages of a table are discarded. -/
  | discardTable (table : TableId)
  /-- All pages are discarded. -/
  | clearCache
  /-- All tables are forgotten. -/
  | clearCatalog
  /-- The scan of a file is called in some state. -/
  | scanFile (call : Cursor.Act) (s : FileScan)
  /-- The scan of a table is called in some state. -/
  | scanTable (t : TableScan) (call : Cursor.Act) (s : Option FileScan)
  /-- The files are changed by another program. -/
  | write (disk : Disk)

/-- The database after an event. -/
def act (db : Database) : Event → Database
  | .openTable file schema name => (db.openTable file schema name).2
  | .addTable file _ name => db.addTable file name
  | .getPage page => (db.getPage page).2
  | .release h => db.release h
  | .discardPage page => { db with pool := (db.pool.discardPage page).2 }
  | .discardTable table => { db with pool := (db.pool.discardTable table).2 }
  | .clearCache => { db with pool := db.pool.clear }
  | .clearCatalog => { db with catalog := .empty }
  | .scanFile call s => (FileScan.cursor.act call s db).2
  | .scanTable t call s => (t.cursor.act call s db).2
  | .write disk => { db with disk := disk }

/-- The database after several events. -/
def run (db : Database) (events : List Event) : Database := events.foldl act db

lemma run_append (db : Database) (before after : List Event) :
    db.run (before ++ after) = (db.run before).run after := List.foldl_append

/-- The pages that are requested in an event. -/
def requested (db : Database) : Event → List PageId
  | .getPage page => [page]
  | .scanFile call s =>
    (FileScan.cursor.act call s (Watched.of db)).2.requests.map Prod.fst
  | .scanTable t call s => (t.cursor.act call s (Watched.of db)).2.requests.map Prod.fst
  | _ => []

/-- The pages that are requested in several events. -/
def requests (db : Database) : List Event → List PageId
  | [] => []
  | e :: rest => db.requested e ++ (db.act e).requests rest

/-! ## What events do -/

variable {db : Database} {count : ℕ} {e : Event}

/-- A request, with what it does to the pool. -/
lemma getPage_requested (hsound : db.pool.Sound count none) (page : PageId) :
    ∃ answer pool, db.getPage page = (answer, { db with pool := pool }) ∧
      db.pool.Requested page (fun _ => db.loadPage page) answer pool :=
  ⟨_, _, rfl, hsound.requested page _⟩

/-- What opening a table leads to. -/
lemma openTable_eq_ok {path name : String} {schema : Schema} {file : HeapFile} {db' : Database}
    (h : db.openTable path schema name = (.ok file, db')) :
    HeapFile.openNamed db.disk path schema db.config.pageSize = .ok file ∧
      db' = { db with
        catalog := db.catalog.add file name
        pool := (db.pool.discardTable file.id).2 } := by
  rw [openTable] at h
  split at h <;> cases h
  exact ⟨‹_›, rfl⟩

lemma openTable_eq_error {path name : String} {schema : Schema} {error : Error} {db' : Database}
    (h : db.openTable path schema name = (.error error, db')) : db' = db := by
  rw [openTable] at h
  split at h <;> cases h
  rfl

/-- What can come of an event. -/
inductive Outcome (count : ℕ) (db : Database) (e : Event) : Database → Prop
  /-- A table is opened. -/
  | opened {path name : String} {schema : Schema} {file : HeapFile} {db' : Database}
    (he : e = .openTable path schema name)
    (hopen : db.openTable path schema name = (.ok file, db')) : Outcome count db e db'
  /-- A heap file is registered. -/
  | added {file : HeapFile} {held : file.layout.Held} {name : String}
    (he : e = .addTable file held name) : Outcome count db e (db.addTable file name)
  /-- All tables are forgotten. -/
  | forgotten (he : e = .clearCatalog) : Outcome count db e { db with catalog := .empty }
  /-- The files are changed. -/
  | written {disk : Disk} (he : e = .write disk) : Outcome count db e { db with disk := disk }
  /-- Catalog and files stay as they are, and every resident page was resident before or has been
  requested and loaded. -/
  | pooled {pool : Pool Page} (hsound : pool.Sound count none)
    (hpool : ∀ {page frame h}, pool.lookup page = some (frame, h) →
      db.pool.lookup page = some (frame, h) ∨
        page ∈ db.requested e ∧ db.loadPage page = .ok h.content) :
    Outcome count db e { db with pool := pool }

/-- Since a database had a certain state, there have been requests only, of which notes were taken,
and pages have left the pool. -/
def Requesting (count : ℕ) (db : Database) (x : Watched Database) : Prop :=
  ∃ pool : Pool Page, x.world = { db with pool := pool } ∧ (x.meanwhile = fun _ => id) ∧
    pool.Sound count none ∧ ∀ {page frame h}, pool.lookup page = some (frame, h) →
      db.pool.lookup page = some (frame, h) ∨
        page ∈ x.requests.map Prod.fst ∧ db.loadPage page = .ok h.content

lemma closed_requesting (count : ℕ) (db : Database) : Storage.Closed (Requesting count db) where
  request := by
    rintro ⟨_, _, requests⟩ ⟨pool, rfl, rfl, hsound, hpool⟩ other
    let now : Database := { db with pool := pool }
    have hnow : now.pool.Sound count none := hsound
    obtain ⟨answer, pool', heq, hrequested⟩ := getPage_requested hnow other
    have hworld : (Storage.request other .readOnly
        (⟨now, fun _ => id, requests⟩ : Watched Database)).2 =
          ⟨(now.getPage other).2, fun _ => id, requests ++ [(other, now)]⟩ := rfl
    rw [hworld, heq]
    refine ⟨pool', rfl, rfl, hrequested.sound hsound, fun {page frame h} hfound => ?_⟩
    obtain hold | ⟨rfl, -, hload⟩ := hrequested.lookup hsound hfound
    · refine (hpool hold).imp_right fun ⟨hmem, hload⟩ => ⟨?_, hload⟩
      rw [List.map_append]
      exact List.mem_append_left _ hmem
    · refine .inr ⟨?_, hload⟩
      rw [List.map_append]
      exact List.mem_append_right _ List.mem_cons_self
  release := by
    rintro ⟨_, _, requests⟩ ⟨pool, rfl, rfl, hsound, hpool⟩ h
    exact ⟨pool.release h, rfl, rfl, hsound.release h, hpool⟩

lemma requesting_of (hsound : db.pool.Sound count none) : Requesting count db (Watched.of db) :=
  ⟨db.pool, rfl, rfl, hsound, .inl⟩

/-- **What an event can do.** -/
lemma outcome (hsound : db.pool.Sound count none) (e : Event) :
    Outcome count db e (db.act e) := by
  cases e with
  | openTable path schema name =>
    rw [act]
    rcases hopen : db.openTable path schema name with ⟨_ | file, db'⟩
    · obtain rfl := openTable_eq_error hopen
      exact .pooled hsound .inl
    · exact .opened rfl hopen
  | addTable file held name => exact .added rfl
  | getPage page =>
    obtain ⟨answer, pool, heq, hrequested⟩ := getPage_requested hsound page
    rw [act, heq]
    refine .pooled (hrequested.sound hsound) fun hfound => ?_
    refine (hrequested.lookup hsound hfound).imp_right ?_
    rintro ⟨rfl, -, hload⟩
    exact ⟨List.mem_singleton.2 rfl, hload⟩
  | release h => exact .pooled (hsound.release h) .inl
  | discardPage page =>
    refine .pooled (hsound.discardPage page) fun hfound => .inl ?_
    rw [hsound.lookup_discardPage] at hfound
    exact (Option.ite_none_left_eq_some.1 hfound).2
  | discardTable table =>
    refine .pooled (hsound.discardTable table) fun hfound => .inl ?_
    rw [hsound.lookup_discardTable] at hfound
    exact (Option.ite_none_left_eq_some.1 hfound).2
  | clearCache =>
    refine .pooled hsound.clear fun hfound => ?_
    rw [hsound.lookup_clear] at hfound
    cases hfound
  | clearCatalog => exact .forgotten rfl
  | scanFile call s =>
    obtain ⟨pool, hworld, -, hsound', hpool⟩ :=
      (closed_requesting count db).act_file call s (requesting_of hsound)
    rw [Watched.world_act_file] at hworld
    rw [act, hworld]
    exact .pooled hsound' hpool
  | scanTable t call s =>
    obtain ⟨pool, hworld, -, hsound', hpool⟩ :=
      (closed_requesting count db).act_table t call s (requesting_of hsound)
    rw [Watched.world_act_table] at hworld
    rw [act, hworld]
    exact .pooled hsound' hpool
  | write disk => exact .written rfl

end Database

end RowStore
