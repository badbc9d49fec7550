import RowStore.Proofs.Database.Reregistration

/-!
# Scans that fail to open

Opening the scan of a table looks the table up, compares its shape with that of the scan and counts
the pages of its file.  One of the three may fail (`TableScan.Hindered`).  Nothing has been touched
by then, so the scan and the database stay as they were.

For a scan that is closed this is what one wants.  It holds no page and refuses to be asked, to hand
out rows and to go back, whatever else is tried and whatever becomes of the tables, until opening
succeeds (`TableScan.start_error_closed`).  The same goes for a scan that lost its file when it was
rewound.

A scan that is open stays open, however: it keeps the page it is on and goes on handing out rows
(`TableScan.start_error_open`).  The cursors that keep one row ahead are different in this, since
they close when they fail to open (`Lookahead.start`).
-/

namespace RowStore.TableScan

variable {t : TableScan} {s s' s₁ : Option FileScan} {db db' db₁ : Database} {e : Failure}

/-- A scan is open if it is somewhere in its file. -/
def IsOpen (s : Option FileScan) : Prop := s.bind FileScan.progress ≠ none

/-- Why the scan of a table cannot be opened: the table is not registered, or has another shape by
now, or the pages of its file cannot be counted. -/
inductive Hindered (t : TableScan) (db : Database) : Error → Prop
  | unregistered (h : db.catalog.tables.find? t.table = none) :
    Hindered t db (.tableNotFound t.table.text)
  | reshaped {file : HeapFile} (h : db.catalog.heapFile t.table = .ok file)
    (hshape : file.schema.shape ≠ t.schema.shape) :
    Hindered t db (.typeMismatch t.schema.text file.schema.text)
  | uncounted {file : HeapFile} {cause : Error} (h : db.catalog.heapFile t.table = .ok file)
    (hshape : file.schema.shape = t.schema.shape) (hcount : file.pageCount db.disk = .error cause) :
    Hindered t db cause

/-- A scan holds no page and refuses to answer, which changes nothing. -/
structure Idle (t : TableScan) (s : Option FileScan) (db : Database) : Prop where
  released : s.bind FileScan.handle? = none
  hasNext : t.cursor.hasNext s db = (.error (notOpen hasNextText), s, db)
  next : ∃ call, t.cursor.next s db = (.error (notOpen call), s, db)
  rewind : t.cursor.rewind s db = (.error (notOpen rewindText), s, db)

/-- What can become of a scan and its database as long as no attempt to open the scan succeeds. -/
inductive Unopened (t : TableScan) (s₀ : Option FileScan) (db₀ : Database) :
    Option FileScan → Database → Prop
  | initial : Unopened t s₀ db₀ s₀ db₀
  /-- A call is made on the scan. -/
  | call {s : Option FileScan} {db : Database} (c : Cursor.Act) (h : Unopened t s₀ db₀ s db)
    (hfails : c = .start → (t.cursor.start s db).1 ≠ .ok ()) :
    Unopened t s₀ db₀ (t.cursor.act c s db).1 (t.cursor.act c s db).2
  /-- Something else happens to the database. -/
  | event {s : Option FileScan} {db : Database} (e : Database.Event)
    (h : Unopened t s₀ db₀ s db) : Unopened t s₀ db₀ s (db.act e)

/-! ## Closed scans -/

lemma not_isOpen_none : ¬ IsOpen none := fun h => h rfl

lemma not_isOpen_some_iff {scan : FileScan} : ¬ IsOpen (some scan) ↔ scan.progress = none :=
  not_not

/-- A scan that is not open is idle. -/
lemma idle_of_not_isOpen (h : ¬ IsOpen s) (db : Database) : t.Idle s db := by
  rcases s with _ | ⟨file, progress⟩
  · exact ⟨rfl, rfl, ⟨_, rfl⟩, rfl⟩
  · obtain rfl : progress = none := not_isOpen_some_iff.1 h
    exact ⟨rfl, rfl, ⟨_, rfl⟩, rfl⟩

/-- A call on an idle scan leaves it closed, unless it is opened. -/
lemma not_isOpen_act (h : ¬ IsOpen s) {c : Cursor.Act}
    (hfails : c = .start → (t.cursor.start s db).1 ≠ .ok ()) :
    ¬ IsOpen (t.cursor.act c s db).1 := by
  have hidle := idle_of_not_isOpen (t := t) h db
  cases c with
  | start =>
    rcases hstart : t.cursor.start s db with ⟨_ | _, s₁, db₁⟩
    · obtain ⟨rfl, -⟩ := start_eq_error hstart
      rw [Cursor.act, hstart]
      exact h
    · exact absurd (by rw [hstart]) (hfails rfl)
  | hasNext =>
    rw [Cursor.act, hidle.hasNext]
    exact h
  | next =>
    obtain ⟨call, hnext⟩ := hidle.next
    rw [Cursor.act, hnext]
    exact h
  | rewind =>
    rw [Cursor.act, hidle.rewind]
    exact h
  | close => rcases s with _ | scan <;> exact not_isOpen_none

/-- A closed scan stays closed until it is opened. -/
lemma Unopened.not_isOpen (h : t.Unopened s db s₁ db₁) (hs : ¬ IsOpen s) : ¬ IsOpen s₁ := by
  induction h with
  | initial => exact hs
  | call c h hfails ih => exact not_isOpen_act ih hfails
  | event e h ih => exact ih

/-! ## Opening that fails -/

lemma hindered_of_start_error (h : t.cursor.start s db = (.error e, s', db')) :
    ∃ cause, e = .error cause ∧ t.Hindered db cause := by
  rcases hfile : Storage.heapFile t.table db with cause | file
  · have hstart : t.start s db = (.error (.error cause), s, db) := by rw [start, hfile]
    cases hstart.symm.trans h
    replace hfile : db.catalog.heapFile t.table = .error cause := hfile
    rw [Catalog.heapFile, Catalog.entry] at hfile
    rcases htable : db.catalog.tables.find? t.table with _ | entry <;> rw [htable] at hfile
    · cases hfile
      exact ⟨_, rfl, .unregistered htable⟩
    · cases hfile
  · by_cases hshape : file.schema.shape = t.schema.shape
    · rcases hcount : Storage.pageCount file db with cause | pageCount
      · cases (start_of_error (s := s) hfile hshape hcount).symm.trans h
        exact ⟨_, rfl, .uncounted hfile hshape hcount⟩
      · cases (start_of_ok (s := s) hfile hshape hcount).symm.trans h
    · have hstart : t.start s db =
          (.error (.error (.typeMismatch t.schema.text file.schema.text)), s, db) := by
        simp only [start, hfile, if_neg hshape]
      cases hstart.symm.trans h
      exact ⟨_, rfl, .reshaped hfile hshape⟩

/-- **A closed scan that fails to open is closed.**  Opening a scan fails if its table is not
registered, if the table has another shape by now, or if its pages cannot be counted.  Scan and
database are then as they were.  If the scan was closed, it holds no page and refuses to answer
after any further calls and any events, as long as no attempt to open it succeeds. -/
theorem start_error_closed (hstart : t.cursor.start s db = (.error e, s', db')) :
    (∃ cause, e = .error cause ∧ t.Hindered db cause) ∧ s' = s ∧ db' = db ∧
      (¬ IsOpen s → ∀ s₁ db₁, t.Unopened s' db' s₁ db₁ → t.Idle s₁ db₁) := by
  obtain ⟨rfl, rfl⟩ := start_eq_error hstart
  refine ⟨hindered_of_start_error hstart, rfl, rfl, fun hs s₁ db₁ hlater => ?_⟩
  exact idle_of_not_isOpen (hlater.not_isOpen hs) db₁

open Database

/-- The scan of a table that is not registered yet cannot be opened.  When the table is registered
and the scan is asked, it still refuses. -/
theorem start_error_closed_numbers :
    numbersTable.cursor.start none (onDisk ⟨8, 2⟩ numbersDisk) =
        (.error (.error (.tableNotFound numbersTable.table.text)), none,
          onDisk ⟨8, 2⟩ numbersDisk) ∧
      ¬ IsOpen none ∧
      numbersTable.cursor.hasNext none numbersOpened =
        (.error (notOpen hasNextText), none, numbersOpened) := by
  have hstart : numbersTable.cursor.start none (onDisk ⟨8, 2⟩ numbersDisk) =
      (.error (.error (.tableNotFound numbersTable.table.text)), none,
        onDisk ⟨8, 2⟩ numbersDisk) := rfl
  have hinitial : numbersTable.Unopened none (onDisk ⟨8, 2⟩ numbersDisk) none
      (onDisk ⟨8, 2⟩ numbersDisk) := .initial
  have hlater : numbersTable.Unopened none (onDisk ⟨8, 2⟩ numbersDisk) none numbersOpened := by
    have hasked := hinitial.call .hasNext fun h => by cases h
    rw [← run_openTable_numbers]
    exact hasked.event (.openTable "a" Plan.numbers "a")
  obtain ⟨-, -, -, hidle⟩ := start_error_closed hstart
  exact ⟨hstart, not_isOpen_none, (hidle not_isOpen_none _ _ hlater).hasNext⟩

/-- **An open scan that fails to open stays open.**  The scan is opened and hands out the first of
the two rows on a page.  Then all tables are forgotten, and opening the scan again fails.  Still it
holds the page and has a row. -/
theorem start_error_open : ∃ s db s₁ db₁ db₂,
    numbersTable.cursor.start none numbersOpened = (.ok (), s, db) ∧
      numbersTable.cursor.next s db = (.ok (numbersRow 7 0 0), s₁, db₁) ∧
      db₂ = db₁.act .clearCatalog ∧
      numbersTable.cursor.start s₁ db₂ =
        (.error (.error (.tableNotFound numbersTable.table.text)), s₁, db₂) ∧
      (s₁.bind FileScan.handle?).isSome = true ∧
      (numbersTable.cursor.hasNext s₁ db₂).1 = .ok true := by
  let s : Option FileScan := some ⟨numbersOnDisk, some (.ofPages 2)⟩
  have hrow : (numbersTable.cursor.next s numbersOpened).1 = .ok (numbersRow 7 0 0) := by cbv
  have hheld : ((numbersTable.cursor.next s numbersOpened).2.1.bind FileScan.handle?).isSome =
      true := by cbv
  have hmore : (numbersTable.cursor.hasNext (numbersTable.cursor.next s numbersOpened).2.1
      ((numbersTable.cursor.next s numbersOpened).2.2.act .clearCatalog)).1 = .ok true := by cbv
  rcases hnext : numbersTable.cursor.next s numbersOpened with ⟨answer, s₁, db₁⟩
  rw [hnext] at hrow hheld hmore
  obtain rfl : answer = _ := hrow
  exact ⟨s, numbersOpened, s₁, db₁, _, rfl, hnext, rfl, rfl, hheld, hmore⟩

end RowStore.TableScan
