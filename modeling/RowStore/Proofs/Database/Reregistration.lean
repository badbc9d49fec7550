import RowStore.Proofs.Database.Reading

/-!
# Tables that are registered again while they are scanned

The scan of a table compares the schema of the table with its own when it is opened, and then keeps
the file.  Its pages come through the pool, though, and are loaded with the entry that the table has
when they are requested.  So if a file is opened as the table under another shape while the scan is
open, the scan hands out rows of that shape (`Database.next_reregistered`).

Unless that happens, all rows have the shape of the scan (`Database.Reaches.next_matches`).  While
the scan is open, the entry of the table, its resident pages and the rows that the scan has not
handed out yet have this shape (`Database.Fits` and `FileScan.pending`); and as soon as the scan is
opened they have it, because cache and catalog agree (`Database.Coherent`).  That takes that no
table is registered past its resident pages (`Database.Event.DropsPages`).
-/

namespace RowStore

variable {W : Type} [Storage W]

/-! ## Rows on their way through a scan -/

/-- The rows that were read and not handed out yet. -/
def ScanProgress.pending (p : ScanProgress) : List Row :=
  p.ahead.toList ++ (p.current.map Prod.snd).getD []

@[inherit_doc ScanProgress.pending]
def FileScan.pending (s : FileScan) : List Row := (s.progress.map ScanProgress.pending).getD []

/-- A scan is one of a table, in a world that is in order, and its pending rows have a property. -/
structure FileScan.Carries (table : TableId) (P : Row → Prop) (Good : W → Prop) (s : FileScan)
    (w : W) : Prop where
  good : Good w
  id_eq : s.file.id = table
  pending : ∀ row ∈ s.pending, P row

/-- As long as a world is in order, it stays so and gives out pages of a table with rows that have a
property. -/
structure Storage.Grants (table : TableId) (P : Row → Prop) (Good : W → Prop) : Prop where
  closed : Storage.Closed Good
  granted : ∀ {w}, Good w → ∀ {page h}, page.table = table →
    (Storage.request page .readOnly w).1 = .ok h → ∀ row ∈ h.content.rows, P row

namespace Storage.Grants

variable {table : TableId} {P : Row → Prop} {Good : W → Prop} (hG : Storage.Grants table P Good)
  {file : HeapFile} {s : FileScan} {w : W}

include hG

/-- Making a row ready. -/
lemma advance (hfile : file.id = table) {p : ScanProgress} (hp : ∀ row ∈ p.pending, P row)
    (hw : Good w) : ∀ row ∈ (p.advance file w).2.1.pending, P row := by
  have hahead : ∀ (q : ScanProgress), q.ahead = p.ahead → q.current = none →
      ∀ row ∈ q.pending, P row := by
    intro q hq hnone row hrow
    simp only [ScanProgress.pending, hq, hnone, Option.map_none, Option.getD_none,
      List.append_nil] at hrow
    exact hp row (List.mem_append_left _ hrow)
  fun_induction ScanProgress.advance file p w with
  | case1 p w h row rest hc =>
    intro other hother
    refine hp other (List.mem_append_right _ ?_)
    rw [hc]
    exact hother
  | case2 p w w₁ hlt e w₂ hr hc => exact hahead _ rfl rfl
  | case3 p w w₁ hlt h w₂ hr hc ih =>
    have hw₁ : Good w₁ := hG.closed.letGo ⟨file, some p⟩ hw
    have hw₂ : Good w₂ := by
      have hkept := hG.closed.request hw₁ ⟨file.id, UInt32.ofNat p.nextPage⟩
      rwa [hr] at hkept
    refine ih ?_ hw₂ ?_
    · intro row hrow
      obtain hrow | hrow := List.mem_append.1 hrow
      · exact hp row (List.mem_append_left _ hrow)
      · exact hG.granted hw₁ hfile (congrArg Prod.fst hr) row hrow
    · exact fun q hq hnone => hahead q hq hnone
  | case4 p w w₁ hlt hc => exact hahead _ rfl rfl

/-- Asking for a row. -/
lemma hasNext (hs : s.Carries table P Good w) :
    (FileScan.hasNext s w).2.1.Carries table P Good (FileScan.hasNext s w).2.2 := by
  have hgood : Good (FileScan.hasNext s w).2.2 := hG.closed.act_file .hasNext s hs.good
  obtain ⟨file, _ | p⟩ := s
  · exact hs
  rcases hahead : p.ahead with _ | row
  · have hadvance := hG.advance hs.id_eq hs.pending hs.good
    rcases hadv : p.advance file w with ⟨answer, p', w'⟩
    rw [hadv] at hadvance
    rw [FileScan.hasNext_of_advance hahead hadv] at hgood ⊢
    exact ⟨hgood, hs.id_eq, hadvance⟩
  · simpa only [FileScan.hasNext, hahead] using hs

/-- Taking a row: it has the property, and so have those that are still pending. -/
lemma next (hs : s.Carries table P Good w) {answer : Except Failure Row} {s' : FileScan} {w' : W}
    (hcall : FileScan.next s w = (answer, s', w')) :
    s'.Carries table P Good w' ∧ ∀ row, answer = .ok row → P row := by
  have hcarries := hG.hasNext hs
  obtain ⟨found, file, progress, hask, hpost⟩ := FileScan.next_cases hcall
  rw [hask] at hcarries
  obtain ⟨e, rfl, rfl⟩ | ⟨pageCount, nextPage, current, row, rfl, rfl, rfl⟩ := hpost
  · exact ⟨hcarries, fun _ h => by cases h⟩
  · refine ⟨⟨hcarries.good, hcarries.id_eq, fun other hother => ?_⟩, fun other h => ?_⟩
    · exact hcarries.pending other (List.mem_cons_of_mem _ hother)
    · cases h
      exact hcarries.pending row List.mem_cons_self

/-- A scan that is closed or was just opened has no rows. -/
lemma start (hs : s.Carries table P Good w) :
    (FileScan.start s w).2.1.Carries table P Good (FileScan.start s w).2.2 := by
  rcases hstart : FileScan.start s w with ⟨_ | _, s', w'⟩
  · obtain ⟨rfl, rfl⟩ := FileScan.start_eq_error hstart
    exact hs
  · obtain ⟨pageCount, -, rfl, rfl⟩ := FileScan.start_eq_ok hstart
    exact ⟨hG.closed.letGo s hs.good, hs.id_eq, fun _ h => by cases h⟩

lemma rewind (hs : s.Carries table P Good w) :
    (FileScan.rewind s w).2.1.Carries table P Good (FileScan.rewind s w).2.2 := by
  obtain ⟨file, _ | p⟩ := s
  · exact hs
  · exact hG.start (s := ⟨file, none⟩)
      ⟨hG.closed.letGo ⟨file, some p⟩ hs.good, hs.id_eq, fun _ h => by cases h⟩

end Storage.Grants

namespace Database

variable {count : ℕ} {t : TableScan} {db : Database} {e : Event}

/-! ## Tables of the shape of a scan -/

/-- The entry of the table of a scan has the shape of the scan, if there is one, and so have the
rows of its resident pages. -/
structure Fits (count : ℕ) (t : TableScan) (db : Database) : Prop where
  coherent : Coherent count db
  entry : ∀ {file}, db.catalog.heapFile t.table = .ok file → file.schema.shape = t.schema.shape
  resident : ∀ {page frame h}, page.table = t.table → db.pool.lookup page = some (frame, h) →
    ∀ row ∈ h.content.rows, row.Matches t.schema.shape

/-- An event, unless it opens a file as the table of a scan under another shape. -/
def Event.KeepsShape (t : TableScan) (db : Database) (e : Event) : Prop :=
  ∀ path schema name file opened, e = .openTable path schema name →
    db.openTable path schema name = (.ok file, opened) → file.id = t.table →
      schema.shape = t.schema.shape

namespace Fits

/-- Because cache and catalog agree, it is enough to look at the entry. -/
lemma of_coherent (hdb : Coherent count db) {file : HeapFile}
    (hfile : db.catalog.heapFile t.table = .ok file)
    (hshape : file.schema.shape = t.schema.shape) : Fits count t db where
  coherent := hdb
  entry hother := by
    cases hfile.symm.trans hother
    exact hshape
  resident htable hfound row hrow := by
    obtain ⟨data, hdecode⟩ := hdb.decoded hfound (htable ▸ hfile)
    exact hshape ▸ (Page.decode_matches hdecode row hrow).2

lemma loadPage (hdb : Fits count t db) {page : PageId} (htable : page.table = t.table)
    {content : Page} (hload : db.loadPage page = .ok content) :
    ∀ row ∈ content.rows, row.Matches t.schema.shape := by
  obtain ⟨file, hfile, hread⟩ := exists_readPage_of_loadPage hload
  obtain ⟨data, hdecode⟩ := HeapFile.exists_decode_of_readPage hread
  intro row hrow
  exact hdb.entry (htable ▸ hfile) ▸ (Page.decode_matches hdecode row hrow).2

/-- One event. -/
lemma act (hdb : Fits count t db) (hdrops : e.DropsPages) (he : e.KeepsShape t db) :
    Fits count t (db.act e) := by
  have hcoherent := hdb.coherent.act hdrops
  have houtcome := outcome hdb.coherent.pool e
  generalize db.act e = db' at houtcome hcoherent ⊢
  cases houtcome with
  | @opened _ _ _ file _ heq hopen =>
    obtain ⟨hfile, rfl⟩ := openTable_eq_ok hopen
    refine ⟨hcoherent, fun {other} hother => ?_, fun htable hfound => ?_⟩
    · rw [Catalog.heapFile_add] at hother
      split at hother
      · next hid =>
        cases hother
        rw [HeapFile.schema_of_openNamed hfile]
        exact he _ _ _ _ _ heq hopen hid
      · exact hdb.entry hother
    · rw [hdb.coherent.pool.lookup_discardTable] at hfound
      exact hdb.resident htable (Option.ite_none_left_eq_some.1 hfound).2
  | added heq => exact (heq ▸ hdrops : Event.DropsPages (.addTable ..)).elim
  | forgotten => exact ⟨hcoherent, fun h => (by cases h), hdb.resident⟩
  | written => exact ⟨hcoherent, hdb.entry, hdb.resident⟩
  | pooled hsound hpool =>
    refine ⟨hcoherent, hdb.entry, fun htable hfound => ?_⟩
    obtain hold | ⟨-, hload⟩ := hpool hfound
    · exact hdb.resident htable hold
    · exact hdb.loadPage htable hload

lemma grants : Storage.Grants t.table (Row.Matches t.schema.shape) (Fits count t) where
  closed := {
    request := fun hdb page => hdb.act (e := .getPage page) trivial fun _ _ _ _ _ h => by cases h
    release := fun hdb h => hdb.act (e := .release h) trivial fun _ _ _ _ _ h => by cases h }
  granted {db} hdb {page h} htable hanswer := by
    obtain ⟨answer, pool, heq, hrequested⟩ := getPage_requested hdb.coherent.pool page
    obtain rfl : answer = .ok h := (congrArg Prod.fst heq).symm.trans hanswer
    obtain ⟨frame, hfound⟩ | ⟨-, hload⟩ := hrequested.content
    · exact hdb.resident htable hfound
    · exact hdb.loadPage htable hload

end Fits

/-! ## Scans of tables -/

/-- What can become of a scan and its database, if no table is registered past its resident pages,
and no file is opened as the table of the scan under another shape while the scan is open. -/
inductive Reaches (config : Config) (disk : Disk) (t : TableScan) :
    Option FileScan → Database → Prop
  /-- At first there are no tables, and the scan is closed. -/
  | initial : Reaches config disk t none (onDisk config disk)
  /-- A call is made on the scan. -/
  | call {s : Option FileScan} {db : Database} (c : Cursor.Act)
    (h : Reaches config disk t s db) :
    Reaches config disk t (t.cursor.act c s db).1 (t.cursor.act c s db).2
  /-- Something else happens to the database. -/
  | event {s : Option FileScan} {db : Database} (e : Event) (hdrops : e.DropsPages)
    (h : Reaches config disk t s db) (hshape : s ≠ none → e.KeepsShape t db) :
    Reaches config disk t s (db.act e)

/-- What is known of a scan and its database. -/
structure Conforms (count : ℕ) (t : TableScan) (s : Option FileScan) (db : Database) : Prop where
  coherent : Coherent count db
  carries : ∀ {scan}, s = some scan →
    scan.Carries t.table (Row.Matches t.schema.shape) (Fits count t) db

namespace Conforms

variable {s : Option FileScan}

/-- One call on the scan.  When it is opened, the entry of the table is compared with the scan, so
the pages that are resident then have the shape of the scan. -/
lemma call (h : Conforms count t s db) (c : Cursor.Act) :
    Conforms count t (t.cursor.act c s db).1 (t.cursor.act c s db).2 := by
  refine ⟨h.coherent.act (e := .scanTable t c s) trivial, fun {scan} hscan => ?_⟩
  cases c with
  | start =>
    replace hscan : (t.start s db).2.1 = some scan := hscan
    show scan.Carries _ _ _ (t.start s db).2.2
    rcases hstart : t.start s db with ⟨_ | _, s', db'⟩ <;> rw [hstart] at hscan
    · obtain ⟨rfl, rfl⟩ := TableScan.start_eq_error hstart
      exact h.carries hscan
    · obtain ⟨file, pageCount, hfile, hshape, -, rfl, rfl⟩ := TableScan.start_eq_ok hstart
      obtain rfl := Option.some.inj hscan
      have hfits := Fits.of_coherent h.coherent hfile hshape
      refine ⟨?_, h.coherent.id_eq hfile, fun _ hrow => by cases hrow⟩
      rcases s with _ | old
      · exact hfits
      · exact Fits.grants.closed.letGo old hfits
  | hasNext =>
    rcases s with _ | old
    · cases hscan
    · obtain rfl := Option.some.inj hscan
      exact Fits.grants.hasNext (h.carries rfl)
  | next =>
    rcases s with _ | old
    · cases hscan
    · obtain rfl := Option.some.inj hscan
      exact (Fits.grants.next (h.carries rfl) rfl).1
  | rewind =>
    rcases s with _ | old
    · cases hscan
    · obtain rfl := Option.some.inj hscan
      exact Fits.grants.rewind (h.carries rfl)
  | close => rcases s with _ | old <;> cases hscan

/-- One other event. -/
lemma event (h : Conforms count t s db) (hdrops : e.DropsPages)
    (hshape : s ≠ none → e.KeepsShape t db) : Conforms count t s (db.act e) := by
  refine ⟨h.coherent.act hdrops, fun hscan => ?_⟩
  obtain ⟨hfits, hid, hpending⟩ := h.carries hscan
  have hopen : s ≠ none := by simp [hscan]
  exact ⟨hfits.act hdrops (hshape hopen), hid, hpending⟩

end Conforms

lemma Reaches.conforms {config : Config} {disk : Disk} {s : Option FileScan}
    (h : Reaches config disk t s db) : Conforms config.poolPages t s db := by
  induction h with
  | initial => exact ⟨.onDisk config disk, fun h => by cases h⟩
  | call c h ih => exact ih.call c
  | event e hdrops h hshape ih => exact ih.event hdrops hshape

/-- **A scan hands out rows of its schema.**  The scan of a table is opened, asked, rewound and
closed, and files are opened as tables, in any order and among any other events.  Unless the table
is opened under another shape while the scan is open, a row that the scan hands out has one field
for each column of the schema of the scan, with a value of the type of the column. -/
theorem Reaches.next_matches {config : Config} {disk : Disk} {s s' : Option FileScan}
    {db' : Database} (h : Reaches config disk t s db) {row : Row}
    (hnext : t.cursor.next s db = (.ok row, s', db')) :
    row.width = t.schema.width ∧ row.Matches t.schema.shape := by
  rcases s with _ | scan
  · cases hnext
  · rcases hcall : FileScan.next scan db with ⟨answer, scan', db''⟩
    have hforward : t.cursor.next (some scan) db = (answer, some scan', db'') := by
      simp only [TableScan.cursor, TableScan.forward, hcall]
    obtain rfl : answer = .ok row := congrArg Prod.fst (hforward.symm.trans hnext)
    have hmatches := (Fits.grants.next (h.conforms.carries rfl) hcall).2 row rfl
    exact ⟨hmatches.width_eq, hmatches⟩

/-- While the scan is open, its file is opened once more for the same rows, under another name. -/
theorem next_matches_numbers : ∃ s db s' db',
    Reaches ⟨8, 2⟩ numbersDisk numbersTable s db ∧
      numbersTable.cursor.next s db = (.ok (numbersRow 7 0 0), s', db') ∧
      (numbersRow 7 0 0).width = 1 ∧ (numbersRow 7 0 0).Matches [.int] := by
  have hopened : Reaches ⟨8, 2⟩ numbersDisk numbersTable none numbersOpened := by
    rw [← run_openTable_numbers]
    exact .event (.openTable "a" Plan.numbers "a") trivial .initial fun h => absurd rfl h
  have hstarted : Reaches ⟨8, 2⟩ numbersDisk numbersTable
      (some ⟨numbersOnDisk, some (.ofPages 2)⟩) numbersOpened := .call .start hopened
  have hagain := Reaches.event (.openTable "a" Plan.numbers "b") trivial hstarted
    fun _ _ _ _ _ _ h _ _ => by
      cases h
      rfl
  have hrow : (numbersTable.cursor.next (some ⟨numbersOnDisk, some (.ofPages 2)⟩)
      (numbersOpened.act (.openTable "a" Plan.numbers "b"))).1 = .ok (numbersRow 7 0 0) := by cbv
  rcases hnext : numbersTable.cursor.next (some ⟨numbersOnDisk, some (.ofPages 2)⟩)
    (numbersOpened.act (.openTable "a" Plan.numbers "b")) with ⟨answer, s', db'⟩
  rw [hnext] at hrow
  obtain rfl : answer = _ := hrow
  exact ⟨_, _, s', db', hagain, hnext, hagain.next_matches hnext⟩

/-- A schema with two columns of integers. -/
def pairs : Schema := ⟨[⟨.int, some "x"⟩, ⟨.int, some "y"⟩], by decide⟩

/-- **A scan can hand out rows of another schema.**  The file is opened for rows of one integer, and
the scan of the table is opened.  Then the file is opened once more for rows of two integers.  The
row that the scan hands out next has two fields, but its schema has one column. -/
theorem next_reregistered : ∃ s db db' s' db'' file row,
    numbersTable.cursor.start none
        ((onDisk ⟨8, 2⟩ numbersDisk).run [.openTable "a" Plan.numbers "a"]) = (.ok (), s, db) ∧
      db.openTable "a" pairs "a" = (.ok file, db') ∧
      numbersTable.cursor.next s db' = (.ok row, s', db'') ∧
      numbersTable.schema.width = 1 ∧ row.fields = [some (.int 7), some (.int 9)] := by
  let s : Option FileScan := some ⟨numbersOnDisk, some (.ofPages 2)⟩
  have hopens : (numbersOpened.openTable "a" pairs "a").1.isOk = true := by cbv
  have hrow : (numbersTable.cursor.next s
      (numbersOpened.openTable "a" pairs "a").2).1.map Row.fields =
        .ok [some (.int 7), some (.int 9)] := by cbv
  rcases hopen : numbersOpened.openTable "a" pairs "a" with ⟨e | file, db'⟩
  · rw [hopen] at hopens
    cases hopens
  rw [hopen] at hrow
  rcases hnext : numbersTable.cursor.next s db' with ⟨e | row, s', db''⟩ <;> rw [hnext] at hrow
  · cases hrow
  · rw [run_openTable_numbers]
    exact ⟨s, numbersOpened, db', s', db'', file, row, rfl, hopen, hnext, rfl, Except.ok.inj hrow⟩

end Database

end RowStore
