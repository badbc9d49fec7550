import RowStore.Catalog
import RowStore.HeapFile.Scan

/-!
# Table scans

A table scan reads all rows of a registered table.  It is made for the table as it is at that
moment, and names the columns of its rows after an alias.  The rows themselves carry the schema of
the table.

Opening the scan looks the table up again.  If the table has another shape by then, the scan
refuses to open.
-/

namespace RowStore

/-- The scan of a table: the alias that qualifies its columns, and the schema of the rows. -/
structure TableScan where
  table : TableId
  qualifier : Option String
  schema : Schema
  deriving DecidableEq, Repr

namespace TableScan

/-- The name of a column under an alias. -/
def qualified (qualifier name : Option String) : String :=
  qualifier.getD absentText ++ "." ++ name.getD absentText

/-- The scan of a table that is registered at present. -/
def ofCatalog (c : Catalog) (table : TableId) (qualifier : Option String) :
    Except Error TableScan := do
  let schema ← c.schema table
  return ⟨table, qualifier, schema.rename fun name => some (qualified qualifier name)⟩

variable {W : Type} [Storage W]

/-- Opens the scan.  If that fails, the scan stays as it is. -/
def start (t : TableScan) : Call W (Option FileScan) Unit := fun s w =>
  match Storage.heapFile t.table w with
  | .error e => (.error (.error e), s, w)
  | .ok file =>
    if file.schema.shape = t.schema.shape then
      match FileScan.start (FileScan.closed file) w with
      | (.error e, _, w) => (.error e, s, w)
      | (.ok (), fresh, w) =>
        match s with
        | none => (.ok (), some fresh, w)
        | some old => (.ok (), some fresh, old.letGo w)
    else (.error (.error (.typeMismatch t.schema.text file.schema.text)), s, w)

/-- A call on the scan of the file, which is refused if there is none. -/
def forward {α : Type} (name : String) (call : Call W FileScan α) :
    Call W (Option FileScan) α := fun s w =>
  match s with
  | none => (.error (notOpen name), s, w)
  | some scan =>
    let (answer, scan, w) := call scan w
    (answer, some scan, w)

/-- Closes the scan. -/
def close (s : Option FileScan) (w : W) : Option FileScan × W :=
  match s with
  | none => (none, w)
  | some scan => (none, (scan.close w).2)

/-- The cursor over the rows of a table. -/
def cursor (t : TableScan) : Cursor W (Option FileScan) where
  start := t.start
  hasNext := forward hasNextText FileScan.hasNext
  next := forward nextText FileScan.next
  rewind := forward rewindText FileScan.rewind
  close := close

theorem start_eq_error {t : TableScan} {s s' : Option FileScan} {w w' : W} {e : Failure}
    (h : t.start s w = (.error e, s', w')) : s' = s ∧ w' = w := by
  rw [start] at h
  split at h
  · cases h
    exact ⟨rfl, rfl⟩
  · split at h
    · split at h
      · next hstart =>
        obtain ⟨-, rfl⟩ := FileScan.start_eq_error hstart
        cases h
        exact ⟨rfl, rfl⟩
      · split at h <;> cases h
    · cases h
      exact ⟨rfl, rfl⟩

theorem start_eq_ok {t : TableScan} {s s' : Option FileScan} {w w' : W}
    (h : t.start s w = (.ok (), s', w')) :
    ∃ file pageCount, Storage.heapFile t.table w = .ok file ∧
      file.schema.shape = t.schema.shape ∧ Storage.pageCount file w = .ok pageCount ∧
      s' = some ⟨file, some (ScanProgress.ofPages pageCount)⟩ ∧
      w' = (s.map fun old => old.letGo w).getD w := by
  rw [start] at h
  split at h
  · cases h
  · next file hfile =>
    split at h
    · next hshape =>
      split at h
      · cases h
      · next fresh w₁ hstart =>
        obtain ⟨pageCount, hcount, rfl, rfl⟩ := FileScan.start_eq_ok hstart
        refine ⟨file, pageCount, hfile, hshape, hcount, ?_⟩
        rcases s with _ | old
        · cases h
          exact ⟨rfl, rfl⟩
        · cases h
          exact ⟨rfl, rfl⟩
    · cases h

/-- Opening the scan of a registered table of its shape fails if the file has no pages to count. -/
theorem start_of_error {t : TableScan} {file : HeapFile} {s : Option FileScan} {w : W} {e : Error}
    (hfile : Storage.heapFile t.table w = .ok file) (hshape : file.schema.shape = t.schema.shape)
    (h : Storage.pageCount file w = .error e) :
    t.start s w = (.error (.error e), s, w) := by
  simp only [start, hfile, hshape, FileScan.start_of_error (s := FileScan.closed file) h, if_true]

/-- Opening the scan of a registered table of its shape opens one of the file, and then gives back
the page that was held before. -/
theorem start_of_ok {t : TableScan} {file : HeapFile} {s : Option FileScan} {w : W}
    {pageCount : Nat} (hfile : Storage.heapFile t.table w = .ok file)
    (hshape : file.schema.shape = t.schema.shape) (h : Storage.pageCount file w = .ok pageCount) :
    t.start s w = (.ok (), some ⟨file, some (ScanProgress.ofPages pageCount)⟩,
      (s.map fun old => old.letGo w).getD w) := by
  simp only [start, hfile, hshape, FileScan.start_of_ok (s := FileScan.closed file) h, if_true]
  cases s <;> rfl

/-- A pull on an open table scan is one on the scan of its file. -/
theorem yields_cursor {t : TableScan} {after before : Option FileScan}
    (h : (t.cursor (W := W)).Yields after before) :
    ∃ a b, after = some a ∧ before = some b ∧ (FileScan.cursor (W := W)).Yields a b := by
  obtain ⟨w, row, w', h⟩ := h
  obtain ⟨s₁, w₁, h1, h2⟩ := Cursor.pull_eq_some_iff.1 h
  cases before with
  | none => simp [cursor, forward] at h1
  | some b =>
    rcases hb : FileScan.hasNext b w with ⟨answer, b₁, w₂⟩
    simp only [cursor, forward, hb] at h1
    cases h1
    rcases ha : FileScan.next b₁ w₁ with ⟨answer, a, w₃⟩
    simp only [cursor, forward, ha] at h2
    cases h2
    exact ⟨a, b, rfl, rfl, w, row, _, Cursor.pull_eq_some_iff.2 ⟨b₁, w₁, hb, ha⟩⟩

/-- A table scan hands out finitely many rows. -/
theorem finite_cursor (t : TableScan) : (t.cursor (W := W)).Finite where
  wf := by
    have key : ∀ b : FileScan, Acc (t.cursor (W := W)).Yields (some b) := by
      intro b
      induction (FileScan.finite_cursor (W := W)).wf.apply b with
      | intro b _ ih =>
        refine Acc.intro _ fun s hs => ?_
        obtain ⟨a, b', rfl, hb, hy⟩ := yields_cursor hs
        cases hb
        exact ih a hy
    refine ⟨fun s => Acc.intro s fun t ht => ?_⟩
    obtain ⟨a, _, rfl, _, _⟩ := yields_cursor ht
    exact key a

end TableScan

end RowStore
