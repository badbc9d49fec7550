import RowStore.Proofs.Database.History
import RowStore.Proofs.Page.Decoding

/-!
# Cache and catalog agree

The pool knows pages by their ids only, and the catalog can get another entry for a table at any
time.  Still every resident page of a table that is registered has been decoded with the schema and
the layout of its entry (`Database.Coherent`), if tables are registered by opening them.  Only two
events could go against that, and do not: opening a table drops its pages with the old entry, and a
page that is loaded is decoded with the entry of that moment.  Forgetting the catalog leaves pages
behind that are under no entry, until the table is opened once more.

Whoever registers a heap file without opening it has to see to the pages that are resident
(`Event.DropsPages`).  Without that it only holds that the pool is sound and that tables are
registered under their ids (`Database.Sound`).

A page that was dropped comes back by a request for it only (`Database.lookup_run`), so the first
request for a page after its table was opened rereads the file (`Database.coherent_run`).
-/

namespace RowStore.Database

variable {db : Database} {count : ℕ}

/-- The pool is sound, and tables are registered under their ids. -/
structure Sound (count : ℕ) (db : Database) : Prop where
  pool : db.pool.Sound count none
  id_eq : ∀ {table file}, db.catalog.heapFile table = .ok file → file.id = table

/-- Besides, every resident page of a registered table has been decoded with its schema and its
layout. -/
structure Coherent (count : ℕ) (db : Database) : Prop extends Sound count db where
  decoded : ∀ {page frame h}, db.pool.lookup page = some (frame, h) → ∀ {file},
    db.catalog.heapFile page.table = .ok file →
      ∃ data, Page.decode page file.schema file.layout data = .ok h.content

lemma exists_readPage_of_loadPage {page : PageId} {content : Page}
    (h : db.loadPage page = .ok content) :
    ∃ file, db.catalog.heapFile page.table = .ok file ∧
      file.readPage db.disk page = .ok content := by
  rw [loadPage] at h
  rcases hfile : db.catalog.heapFile page.table with e | file <;> rw [hfile] at h
  · cases h
  · exact ⟨file, rfl, h⟩

/-- No table is registered without dropping the pages of it that are resident. -/
def Event.DropsPages : Event → Prop
  | .addTable .. => False
  | _ => True

namespace Sound

lemma onDisk (config : Config) (disk : Disk) : Sound config.poolPages (onDisk config disk) where
  pool := .ofFrames _
  id_eq h := by cases h

lemma id_of_add (hdb : Sound count db) {file : HeapFile} {name : String} {table : TableId}
    {other : HeapFile} (h : (db.catalog.add file name).heapFile table = .ok other) :
    other.id = table := by
  rw [Catalog.heapFile_add] at h
  split at h
  · next hid =>
    cases h
    exact hid
  · exact hdb.id_eq h

/-- One event. -/
lemma act (hdb : Sound count db) (e : Event) : Sound count (db.act e) := by
  have houtcome := outcome hdb.pool e
  generalize db.act e = db' at houtcome ⊢
  cases houtcome with
  | opened he hopen =>
    obtain ⟨-, rfl⟩ := openTable_eq_ok hopen
    exact ⟨hdb.pool.discardTable _, hdb.id_of_add⟩
  | added he => exact ⟨hdb.pool, hdb.id_of_add⟩
  | forgotten he => exact ⟨hdb.pool, fun h => by cases h⟩
  | written he => exact ⟨hdb.pool, hdb.id_eq⟩
  | pooled hpool => exact ⟨hpool, hdb.id_eq⟩

lemma run (hdb : Sound count db) (events : List Event) : Sound count (db.run events) := by
  induction events generalizing db with
  | nil => exact hdb
  | cons e rest ih => exact ih (hdb.act e)

end Sound

namespace Coherent

lemma onDisk (config : Config) (disk : Disk) :
    Coherent config.poolPages (onDisk config disk) where
  toSound := .onDisk config disk
  decoded h := by cases h

/-- The entry of a table is replaced, and its pages are dropped. -/
lemma openTable (hdb : Coherent count db) {path name : String} {schema : Schema} {file : HeapFile}
    {db' : Database} (h : db.openTable path schema name = (.ok file, db')) :
    Coherent count db' := by
  obtain ⟨-, rfl⟩ := openTable_eq_ok h
  refine ⟨⟨hdb.pool.discardTable file.id, hdb.id_of_add⟩,
    fun {page frame hd} hfound other hother => ?_⟩
  rw [hdb.pool.lookup_discardTable] at hfound
  rw [Catalog.heapFile_add] at hother
  split at hfound
  · cases hfound
  · next hne =>
    rw [if_neg fun heq => hne heq.symm] at hother
    exact hdb.decoded hfound hother

/-- One event. -/
lemma act (hdb : Coherent count db) {e : Event} (he : e.DropsPages) :
    Coherent count (db.act e) := by
  have houtcome := outcome hdb.pool e
  have hsound := hdb.toSound.act e
  generalize db.act e = db' at houtcome hsound ⊢
  cases houtcome with
  | opened _ hopen => exact hdb.openTable hopen
  | added heq => exact (heq ▸ he : Event.DropsPages (.addTable ..)).elim
  | forgotten => exact ⟨hsound, fun _ _ h => by cases h⟩
  | written => exact ⟨hsound, hdb.decoded⟩
  | pooled _ hpool =>
    refine ⟨hsound, fun hfound file hfile => ?_⟩
    obtain hold | ⟨-, hload⟩ := hpool hfound
    · exact hdb.decoded hold hfile
    · obtain ⟨file', hfile', hread⟩ := exists_readPage_of_loadPage hload
      cases hfile.symm.trans hfile'
      exact HeapFile.exists_decode_of_readPage hread

lemma run (hdb : Coherent count db) {events : List Event} (h : ∀ e ∈ events, e.DropsPages) :
    Coherent count (db.run events) := by
  induction events generalizing db with
  | nil => exact hdb
  | cons e rest ih =>
    rw [List.forall_mem_cons] at h
    exact ih (hdb.act h.1) h.2

end Coherent

/-! ## Pages that are not resident -/

/-- A page that is not resident stays so in an event that does not request it. -/
lemma lookup_act (hsound : db.pool.Sound count none) {page : PageId}
    (habsent : db.pool.lookup page = none) {e : Event} (hrequested : page ∉ db.requested e) :
    (db.act e).pool.lookup page = none := by
  have houtcome := outcome hsound e
  generalize db.act e = db' at houtcome ⊢
  cases houtcome with
  | @opened _ _ _ file _ he hopen =>
    obtain ⟨-, rfl⟩ := openTable_eq_ok hopen
    rw [hsound.lookup_discardTable, habsent, ite_self]
  | added he => exact habsent
  | forgotten he => exact habsent
  | written he => exact habsent
  | pooled hsound' hpool =>
    rw [Option.eq_none_iff_forall_ne_some]
    rintro ⟨frame, h⟩ hfound
    obtain hold | ⟨hmem, -⟩ := hpool hfound
    · rw [habsent] at hold
      cases hold
    · exact hrequested hmem

lemma lookup_run (hdb : Sound count db) {page : PageId} (habsent : db.pool.lookup page = none)
    {events : List Event} (hrequests : page ∉ db.requests events) :
    (db.run events).pool.lookup page = none := by
  induction events generalizing db with
  | nil => exact habsent
  | cons e rest ih =>
    rw [requests, List.mem_append, not_or] at hrequests
    exact ih (hdb.act e) (lookup_act hdb.pool habsent hrequests.1) hrequests.2

/-- The first request for a page after its table was opened. -/
lemma getPage_opened (hdb : Sound count db) {path name : String} {schema : Schema}
    {file : HeapFile} {opened : Database}
    (hopen : db.openTable path schema name = (.ok file, opened)) {later : List Event}
    {page : PageId} (htable : page.table = file.id) (hfirst : page ∉ opened.requests later) :
    (opened.run later).pool.contains page = false ∧
      ((opened.run later).getPage page).2.pool.misses = (opened.run later).pool.misses + 1 ∧
      ((opened.run later).getPage page).2.pool.hits = (opened.run later).pool.hits ∧
      (((opened.run later).getPage page).1.map Handle.content = (opened.run later).loadPage page ∨
        ((opened.run later).getPage page).1 = .error .poolFull ∧
          ¬ (opened.run later).pool.HasRoom) := by
  have hopened : Sound count opened := by
    have hact := hdb.act (.openTable path schema name)
    rwa [act, hopen] at hact
  have habsent : opened.pool.lookup page = none := by
    obtain ⟨-, rfl⟩ := openTable_eq_ok hopen
    show (db.pool.discardTable file.id).2.lookup page = none
    rw [hdb.pool.lookup_discardTable, if_pos htable]
  have hlater := hopened.run later
  have hnone := lookup_run hopened habsent hfirst
  obtain ⟨answer, pool, heq, hrequested⟩ := getPage_requested hlater.pool page
  obtain ⟨hmisses, hhits, hanswer⟩ := hrequested.miss hnone
  rw [heq]
  refine ⟨?_, hmisses, hhits, hanswer.imp_right fun h => ⟨h.1, h.2.1⟩⟩
  rw [hlater.pool.contains_eq, hnone]
  rfl

/-- **Cache and catalog stay coherent.**  After any events, from a database without tables on,

* every resident page of a registered table has been decoded with the schema and the layout of the
  entry that the table has then, if tables were only registered by opening them;
* if a table is opened successfully, then whatever comes after it, the first request for one of its
  pages is a miss, and it is answered with what the file of the table holds at that moment, if there
  is room in the pool;
* if opening a table fails, nothing changes. -/
theorem coherent_run (config : Config) (disk : Disk) (events : List Event) :
    let db := (onDisk config disk).run events
    ((∀ e ∈ events, e.DropsPages) → ∀ page frame h file,
      db.pool.lookup page = some (frame, h) → db.catalog.heapFile page.table = .ok file →
        ∃ data, Page.decode page file.schema file.layout data = .ok h.content) ∧
    (∀ path schema name file opened, db.openTable path schema name = (.ok file, opened) →
      opened.catalog.heapFile file.id = .ok file ∧
        ∀ later page, page.table = file.id → page ∉ opened.requests later →
          (opened.run later).pool.contains page = false ∧
            ((opened.run later).getPage page).2.pool.misses = (opened.run later).pool.misses + 1 ∧
            ((opened.run later).getPage page).2.pool.hits = (opened.run later).pool.hits ∧
            (((opened.run later).getPage page).1.map Handle.content =
                (opened.run later).loadPage page ∨
              ((opened.run later).getPage page).1 = .error .poolFull ∧
                ¬ (opened.run later).pool.HasRoom)) ∧
    ∀ path schema name e failed, db.openTable path schema name = (.error e, failed) →
      failed = db := by
  intro db
  have hdb : Sound config.poolPages db := (Sound.onDisk config disk).run events
  refine ⟨fun hdrops page frame h file hfound hfile => ?_, ?_, ?_⟩
  · exact ((Coherent.onDisk config disk).run hdrops).decoded hfound hfile
  · intro path schema name file opened hopen
    refine ⟨?_, fun later page htable hfirst => getPage_opened hdb hopen htable hfirst⟩
    obtain ⟨-, rfl⟩ := openTable_eq_ok hopen
    rw [Catalog.heapFile_add, if_pos rfl]
  · intro path schema name e failed hopen
    exact openTable_eq_error hopen

end RowStore.Database
