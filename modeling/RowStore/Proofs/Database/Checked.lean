import RowStore.Bounded
import RowStore.Proofs.Database.Coherence
import RowStore.Proofs.Query.Openings

/-!
# Databases held to the bounds of a machine

`Database.Checked` looks at every request before the database sees it, and remembers the first one
that is out of bounds.  What is proved of databases is proved without these checks.  They find
nothing as long as the pages of every registered table can be held (`Holdable`), and then nobody can
tell the two databases apart.

So it is with every database that is made with an acceptable configuration.  A page size of 32 bits
keeps pages far below the bound, and a heap file from elsewhere is only registered if its own pages
can be held.
-/

namespace RowStore

namespace HeapFile

/-- A file is opened with the page size that was asked for. -/
lemma pageSize_of_openNamed {d : Disk} {name : String} {schema : Schema} {pageSize : ℕ}
    {f : HeapFile} (h : openNamed d name schema pageSize = .ok f) :
    f.layout.pageSize = pageSize := by
  rw [openNamed] at h
  rcases hpath : d.resolve name with e | path <;> rw [hpath] at h
  · cases h
  rcases hlayout : layoutFor schema pageSize with e | layout <;> rw [hlayout] at h <;> cases h
  exact congrArg PageLayout.pageSize ((layoutFor_eq_ok_iff schema pageSize layout).1 hlayout)

end HeapFile

/-- Pages of a configurable size can be held. -/
lemma PageLayout.Valid.held_of_pageSize_le {l : PageLayout} (h : l.Valid)
    (hsize : l.pageSize ≤ Config.maxPageSize) : l.Held := by
  have hwords : l.headerWords ≤ (maxSlots + (wordBits - 1)) / wordBits :=
    Nat.div_le_div_right (Nat.add_le_add_right h.2 _)
  refine h.held_iff.2 ?_
  calc l.stride = l.headerWords * wordBytes + l.pageSize := rfl
    _ ≤ (maxSlots + (wordBits - 1)) / wordBits * wordBytes + Config.maxPageSize :=
      Nat.add_le_add (Nat.mul_le_mul_right _ hwords) hsize
    _ ≤ Size.bufferLimit := by decide

namespace Database

variable {db : Database} {count : ℕ} {e : Event}

/-! ## Tables whose pages can be held -/

/-- The pages of every registered table can be held. -/
def Holdable (db : Database) : Prop :=
  ∀ {table file}, db.catalog.heapFile table = .ok file → file.layout.Held

namespace Holdable

lemma add (hdb : db.Holdable) {file : HeapFile} (hfile : file.layout.Held) {name : String}
    {table : TableId} {other : HeapFile}
    (h : (db.catalog.add file name).heapFile table = .ok other) : other.layout.Held := by
  rw [Catalog.heapFile_add] at h
  split_ifs at h
  · cases h
    exact hfile
  · exact hdb h

/-- No request is out of bounds. -/
lemma checkRequest (hdb : db.Holdable) (page : PageId) : db.checkRequest page = .ok () := by
  rw [Database.checkRequest]
  rcases hfile : db.catalog.heapFile page.table with e | file
  · rfl
  · dsimp only
    split
    · rw [Size.checkBuffer, Size.within_of_le (hdb hfile).1]
      rfl
    · rfl

lemma act (hdb : db.Holdable) (hsound : db.pool.Sound count none)
    (hsize : db.config.pageSize ≤ Config.maxPageSize) (e : Event) :
    (db.act e).Holdable ∧ (db.act e).config = db.config := by
  have houtcome := outcome hsound e
  generalize db.act e = db' at houtcome ⊢
  cases houtcome with
  | opened he hopen =>
    obtain ⟨hfile, rfl⟩ := openTable_eq_ok hopen
    have hpage := HeapFile.pageSize_of_openNamed hfile
    exact ⟨hdb.add (HeapFile.valid _ |>.held_of_pageSize_le (hpage.trans_le hsize)), rfl⟩
  | @added file held name he => exact ⟨hdb.add held, rfl⟩
  | forgotten he =>
    refine ⟨?_, rfl⟩
    rintro table file ⟨⟩
  | written he => exact ⟨hdb, rfl⟩
  | pooled hsound' hpool => exact ⟨hdb, rfl⟩

/-- The pages of every table that is registered in the course of events can be held. -/
lemma run (hdb : db.Holdable) (hsound : Sound count db)
    (hsize : db.config.pageSize ≤ Config.maxPageSize) (events : List Event) :
    (db.run events).Holdable := by
  induction events generalizing db with
  | nil => exact hdb
  | cons e rest ih =>
    obtain ⟨hact, hconfig⟩ := hdb.act hsound.pool hsize e
    exact ih hact (hsound.act e) (hconfig ▸ hsize)

end Holdable

/-! ## The checks find nothing -/

namespace Checked

/-- A database whose requests are within the bounds, and the same one without checks. -/
def lockstep : Lockstep Checked Database where
  Rel x db := x = of db ∧ db.Holdable
  Broken _ _ := False
  heapFile_eq := by
    rintro _ db ⟨rfl, -⟩ table
    rfl
  pageCount_eq := by
    rintro _ db ⟨rfl, -⟩ file
    rfl
  request := by
    rintro _ db ⟨rfl, hdb⟩ page
    exact .inl ⟨_, _, _, request_of_ok .readOnly (hdb.checkRequest page), rfl, rfl, hdb⟩
  release := by
    rintro _ db ⟨rfl, hdb⟩ h
    exact ⟨rfl, hdb⟩
  broken_release h _ := h

variable {σ α : Type}

/-- A call does the same with and without checks, and they find nothing. -/
def Unnoticed (call : Call Checked σ α) (call' : Call Database σ α) (s : σ) (db : Database) :
    Prop :=
  call s (of db) = ((call' s db).1, (call' s db).2.1, of (call' s db).2.2)

lemma unnoticed_of_keeps {call : Call Checked σ α} {call' : Call Database σ α}
    (h : lockstep.Keeps call call') (hdb : db.Holdable) (s : σ) : Unnoticed call call' s db := by
  obtain ⟨answer, s', _, db', hx, hy, rfl, -⟩ | ⟨_, _, _, -, hbroken⟩ := h s _ db ⟨rfl, hdb⟩
  · rw [Unnoticed, hx, hy]
  · exact hbroken.elim

end Checked

/-- **The checks of a machine go unnoticed.**  After any events, from a database without tables and
with an acceptable page size on, the calls on the cursor of a plan do in the database that is held
to bounds what they do without them, in every state of the cursor and however the aggregations list
their groups; and no request is found to be out of bounds. -/
theorem checks_unnoticed (config : Config) (hsize : config.pageSize ≤ Config.maxPageSize)
    (disk : Disk) (events : List Event) (p : Plan) (orders : p.Orders Checked) (s : p.State) :
    let db := (onDisk config disk).run events
    let c := p.cursor orders
    let c' := p.cursor (orders.seen Checked.of)
    Checked.Unnoticed c.start c'.start s db ∧ Checked.Unnoticed c.hasNext c'.hasNext s db ∧
      Checked.Unnoticed c.next c'.next s db ∧ Checked.Unnoticed c.rewind c'.rewind s db ∧
      Checked.Unnoticed (p.drain orders) (p.drain (orders.seen Checked.of)) s db ∧
      c.close s (.of db) = ((c'.close s db).1, .of (c'.close s db).2) := by
  intro db c c'
  have hdb : db.Holdable :=
    Holdable.run (fun h => by cases h) (Sound.onDisk config disk) hsize events
  have hopenings : Checked.lockstep.Openings c c' :=
    p.openings_inStep Checked.lockstep (fun h => h.1.symm) orders
  have hcursors : Checked.lockstep.Cursors c c' :=
    p.cursors_inStep Checked.lockstep orders (orders.seen Checked.of)
  refine ⟨Checked.unnoticed_of_keeps hopenings.start hdb s,
    Checked.unnoticed_of_keeps hcursors.hasNext hdb s,
    Checked.unnoticed_of_keeps hcursors.next hdb s,
    Checked.unnoticed_of_keeps hcursors.rewind hdb s,
    Checked.unnoticed_of_keeps (hcursors.drain _ _) hdb s, ?_⟩
  obtain ⟨s', hs, hx, hy⟩ := hopenings.close s
  obtain ⟨hrel, -⟩ := Lockstep.rel_releaseAll (L := Checked.lockstep) hs ⟨rfl, hdb⟩
  rw [hx, hy, hrel]

end Database

end RowStore
