import RowStore.Database
import RowStore.Proofs.Pool.Pins
import RowStore.Proofs.Query.Service

/-!
# A database serves its tables

While its catalog and its disk stay as they are, a database serves the pages of its tables
(`Database.service`) and refuses no request, as long as there are more frames than handles out.  A
request fails only if every frame is pinned, and so many handles pin at most so many frames
(`Pool.Indexed.pinnedBy_le_length`).

The pool may already hold pages.  All that is asked of them is that they are what their files
contain (`Database.Serving.coherent`).
-/

namespace RowStore

/-- The only table of a catalog is registered under its id. -/
lemma Catalog.id_of_heapFile_add_empty {file other : HeapFile} {name : String} {table : TableId}
    (h : (empty.add file name).heapFile table = .ok other) : other.id = table := by
  rw [heapFile_add] at h
  split at h
  · next htable =>
    cases h
    exact htable
  · cases h

namespace Database

/-- A state of a database with a given catalog and disk: the handles that are out are those given
and the others, and the pages in the pool are what their files contain. -/
structure Serving (c : Catalog) (d : Disk) (count : ℕ) (others : Multiset ℕ)
    (H : Multiset (Handle Page)) (db : Database) : Prop where
  catalog_eq : db.catalog = c
  disk_eq : db.disk = d
  sound : db.pool.Sound count none
  out_eq : (db.pool.out : Multiset ℕ) = H.map Handle.ticket + others
  coherent : ∀ {page frame h}, db.pool.lookup page = some (frame, h) → ∀ {file content},
    c.heapFile page.table = .ok file → file.readPage d page = .ok content → h.content = content

namespace Serving

variable {c : Catalog} {d : Disk} {count : ℕ} {others : Multiset ℕ} {H : Multiset (Handle Page)}
  {db : Database}

/-- A database whose pool is new. -/
lemma of_ofFrames (config : Config) :
    Serving c d count 0 0 ⟨config, d, c, .ofFrames count⟩ where
  catalog_eq := rfl
  disk_eq := rfl
  sound := .ofFrames count
  out_eq := rfl
  coherent h := by cases h

/-- Giving out a handle, from a pool with the same pages. -/
lemma lend (hdb : Serving c d count others H db) {pool : Pool Page} {h : Handle Page}
    (hsound : pool.Sound count none) (hout : pool.out = h.ticket :: db.pool.out)
    (hcoherent : ∀ {page frame h}, pool.lookup page = some (frame, h) → ∀ {file content},
      c.heapFile page.table = .ok file → file.readPage d page = .ok content → h.content = content) :
    Serving c d count others (h ::ₘ H) { db with pool := pool } where
  catalog_eq := hdb.catalog_eq
  disk_eq := hdb.disk_eq
  sound := hsound
  out_eq := by
    show (pool.out : Multiset ℕ) = _
    rw [hout, ← Multiset.cons_coe, hdb.out_eq, Multiset.map_cons, Multiset.cons_add]
  coherent := hcoherent

lemma release {h : Handle Page} (hdb : Serving c d count others (h ::ₘ H) db) :
    Serving c d count others H (db.release h) where
  catalog_eq := hdb.catalog_eq
  disk_eq := hdb.disk_eq
  sound := hdb.sound.release h
  out_eq := by
    show ((db.pool.out.erase h.ticket : List ℕ) : Multiset ℕ) = _
    rw [← Multiset.coe_erase, hdb.out_eq, Multiset.map_cons, Multiset.cons_add,
      Multiset.erase_cons_head]
  coherent := hdb.coherent

/-- As long as there are fewer handles than frames there is room: otherwise every frame would be
pinned by a handle of its own. -/
lemma hasRoom (hdb : Serving c d count others H db) (hroom : H.card + others.card < count) :
    db.pool.HasRoom := by
  by_contra hfull
  have hle : count ≤ db.pool.out.length :=
    (hdb.sound.le_pinnedBy hfull).trans (hdb.sound.pinnedBy_le_length _)
  have hcard := congrArg Multiset.card hdb.out_eq
  rw [Multiset.coe_card, Multiset.card_add, Multiset.card_map] at hcard
  omega

/-- A request for a page that can be read is answered as long as there is a frame without a
handle. -/
lemma getPage (hdb : Serving c d count others H db) (hroom : H.card + others.card < count)
    {file : HeapFile} {page : PageId} {content : Page} (hfile : c.heapFile page.table = .ok file)
    (hread : file.readPage d page = .ok content) :
    ∃ h db', db.getPage page = (.ok h, db') ∧ h.content = content ∧
      Serving c d count others (h ::ₘ H) db' := by
  have hload : db.loadPage page = .ok content := by
    rw [loadPage, hdb.catalog_eq, hdb.disk_eq, hfile]
    exact hread
  have hrequested := hdb.sound.requested page fun _ => db.loadPage page
  rcases hget : db.pool.getOrLoad page (fun _ => db.loadPage page) with ⟨answer, pool⟩
  rw [hget] at hrequested
  have hdbget : db.getPage page = (answer, { db with pool := pool }) := by
    simp only [Database.getPage, hget]
  have hcoherent : ∀ {other frame h}, pool.lookup other = some (frame, h) → ∀ {file content},
      c.heapFile other.table = .ok file → file.readPage d other = .ok content →
        h.content = content := by
    intro other frame h hfound file' content' hfile' hread'
    obtain hold | ⟨rfl, -, hloaded⟩ := hrequested.lookup hdb.sound hfound
    · exact hdb.coherent hold hfile' hread'
    · cases hfile.symm.trans hfile'
      cases hread.symm.trans hread'
      exact (Except.ok.inj (hload.symm.trans hloaded)).symm
  rcases answer with e | h
  · obtain ⟨-, hfailed | ⟨-, hfull, -⟩⟩ := hrequested.refused
    · cases hload.symm.trans hfailed
    · exact absurd (hdb.hasRoom hroom) hfull
  · refine ⟨h, _, hdbget, ?_, hdb.lend (hrequested.sound hdb.sound) hrequested.out hcoherent⟩
    obtain ⟨frame, hresident⟩ | ⟨-, hloaded⟩ := hrequested.content
    · exact hdb.coherent hresident hfile hread
    · exact (Except.ok.inj (hload.symm.trans hloaded)).symm

end Serving

/-- The service of a database with a given catalog and disk and so many frames, of which others may
keep some pages pinned. -/
def service (c : Catalog) (d : Disk) (count : ℕ) (others : Multiset ℕ)
    (hid : ∀ {table file}, c.heapFile table = .ok file → file.id = table) : Service Database where
  catalog := c
  disk := d
  limit := count - others.card
  Refuses _ := False
  Good := Serving c d count others
  id_eq := hid
  heapFile_eq hdb table := congrArg (Catalog.heapFile · table) hdb.catalog_eq
  pageCount_eq hdb file _ := congrArg file.pageCount hdb.disk_eq
  request hdb hlt _ _ _ hfile hread := .inr (hdb.getPage (by omega) hfile hread)
  release hdb := hdb.release

end Database

end RowStore
