import RowStore.Proofs.Database.Coherence
import RowStore.Proofs.HeapFile.Errors
import RowStore.Proofs.Pool.Pins
import RowStore.Proofs.Query.Closing

/-!
# A database among other clients

A database is used by a plan and by others at the same time.  The others request pages and keep the
handles for as long as they like, and they open or register tables, drop pages or write files
(`Deed`).  A
`Company` is a database with the handles that others keep.

The handles that are out are accounted for as those of the plan and those that others keep
(`Company.Accounts`), and everything that can happen keeps the accounts.  From them follows when a
request fails for want of a frame: as many frames as there are would have to be pinned by the
handles of the plan and by others (`Company.Accounts.request`).  A request of the plan never makes
others pin more frames, because a page that is loaded gets a new ticket.
-/

namespace RowStore

/-- The event does not give handles out or take them back. -/
def Database.Event.Manages : Database.Event → Prop
  | .getPage _ | .release _ | .scanFile _ _ | .scanTable _ _ _ => False
  | _ => True

/-- What another client does to a database: it requests a page and keeps the handle, gives the
handle at some place of those it keeps back, or does something that does not concern handles. -/
inductive Deed where
  | take (page : PageId)
  | giveBack (place : ℕ)
  | manage (e : Database.Event) (he : e.Manages)

/-- A database with the handles that others keep. -/
structure Company where
  db : Database
  kept : List (Handle Page)

namespace Company

instance : Storage Company where
  heapFile table y := Storage.heapFile table y.db
  pageCount file y := Storage.pageCount file y.db
  request page access y :=
    let (answer, db) := Storage.request page access y.db
    (answer, { y with db := db })
  release h y := { y with db := Storage.release h y.db }

/-- The database on a disk, without tables, and nobody keeps a handle. -/
def onDisk (config : Config) (disk : Disk) : Company := ⟨Database.onDisk config disk, []⟩

/-- The company after a deed. -/
def act (y : Company) : Deed → Company
  | .take page =>
    match y.db.getPage page with
    | (.error _, db) => ⟨db, y.kept⟩
    | (.ok h, db) => ⟨db, h :: y.kept⟩
  | .giveBack place =>
    match y.kept[place]? with
    | none => y
    | some h => ⟨y.db.release h, y.kept.eraseIdx place⟩
  | .manage e _ => { y with db := y.db.act e }

/-- The company after several deeds. -/
def run (y : Company) (deeds : List Deed) : Company := deeds.foldl act y

/-- The tickets of the handles that others keep. -/
def tickets (y : Company) : List ℕ := y.kept.map Handle.ticket

/-- The number of frames that others pin. -/
def pins (y : Company) : ℕ := y.db.pool.pinnedBy y.tickets

/-- A company in which others do certain deeds before each request that is made of it. -/
def during (y : Company) (meanwhile : ℕ → List Deed) : Watched Company :=
  ⟨y, fun n y => y.run (meanwhile n), []⟩

/-- A request is one to the database. -/
lemma request_eq {y : Company} {page : PageId} {answer : Except Error (Handle Page)} {db : Database}
    (h : y.db.getPage page = (answer, db)) :
    Storage.request page .readOnly y = (answer, ⟨db, y.kept⟩) := by
  show (let (answer, db) := y.db.getPage page; (answer, ({ y with db := db } : Company))) = _
  rw [h]

/-! ## Accounts -/

/-- The handles that are out are the given ones and those that others keep. -/
structure Accounts (count : ℕ) (H : Multiset (Handle Page)) (y : Company) : Prop where
  sound : Database.Sound count y.db
  out_eq : (y.db.pool.out : Multiset ℕ) = H.map Handle.ticket + y.tickets
  old : ∀ ticket ∈ y.db.pool.out, ticket < y.db.pool.nextTicket

variable {y : Company} {count : ℕ} {H : Multiset (Handle Page)}

lemma accounts_onDisk (config : Config) (disk : Disk) :
    (onDisk config disk).Accounts config.poolPages 0 :=
  ⟨.onDisk config disk, rfl, fun _ h => by cases h⟩

namespace Accounts

/-- Others pin no frame beyond those that there are. -/
lemma pins_le_count (hy : y.Accounts count H) : y.pins ≤ count := by
  rw [← hy.sound.pool.length_frames]
  exact List.countP_le_length

/-- If there is no room, as many frames are pinned as there are handles given and others pin. -/
lemma count_le (hy : y.Accounts count H) (hfull : ¬ y.db.pool.HasRoom) :
    count ≤ H.card + y.pins := by
  obtain ⟨mine, hmine⟩ := Quot.exists_rep (H.map Handle.ticket)
  have hmine : H.map Handle.ticket = (mine : Multiset ℕ) := hmine.symm
  have hsplit : ∀ ticket ∈ y.db.pool.out, ticket ∈ mine ∨ ticket ∈ y.tickets := by
    intro ticket hticket
    rw [← Multiset.mem_coe, hy.out_eq, hmine] at hticket
    simpa using hticket
  have hcard : mine.length = H.card := by
    rw [← Multiset.coe_card, ← hmine, Multiset.card_map]
  calc count ≤ y.db.pool.pinnedBy y.db.pool.out := hy.sound.pool.le_pinnedBy hfull
    _ ≤ y.db.pool.pinnedBy mine + y.db.pool.pinnedBy y.tickets := Pool.pinnedBy_le_add hsplit
    _ ≤ mine.length + y.pins :=
      Nat.add_le_add_right (hy.sound.pool.pinnedBy_le_length mine) _
    _ = H.card + y.pins := by rw [hcard]

/-- A request is made.  Others pin no more frames after it, and it only fails for want of a frame if
every frame is pinned. -/
lemma request (hy : y.Accounts count H) (page : PageId) :
    (∃ e y', Storage.request page .readOnly y = (.error e, y') ∧ y'.Accounts count H ∧
        y'.pins ≤ y.pins ∧ (e = .poolFull → count ≤ H.card + y.pins)) ∨
      ∃ h y', Storage.request page .readOnly y = (.ok h, y') ∧ y'.Accounts count (h ::ₘ H) ∧
        y'.pins ≤ y.pins := by
  obtain ⟨answer, pool, heq, hrequested⟩ :=
    Database.getPage_requested hy.sound.pool page
  have hsound := hrequested.sound hy.sound.pool
  have hafter : Database.Sound count { y.db with pool := pool } := by
    have hact := hy.sound.act (.getPage page)
    rwa [Database.act, heq] at hact
  have hold := hrequested.lt_nextTicket hy.sound.pool hy.old
  have hpins : pool.pinnedBy y.tickets ≤ y.pins := by
    refine (hrequested.renews hy.sound.pool).pinnedBy_le hsound.toIndexed fun ticket h => ?_
    refine hy.old ticket ?_
    rw [← Multiset.mem_coe, hy.out_eq]
    exact Multiset.mem_add.2 (.inr h)
  have hrequest := request_eq heq
  rcases answer with e | h
  · refine .inl ⟨e, _, hrequest, ⟨hafter, ?_, hold⟩, hpins, fun hpool => ?_⟩
    · have hout : pool.out = y.db.pool.out := by cases hrequested <;> rfl
      exact (congrArg _ hout).trans hy.out_eq
    · obtain ⟨-, hload | ⟨-, hfull, -⟩⟩ := hrequested.refused
      · subst hpool
        exact (Database.isOfStorage_of_loadPage hload).elim
      · exact hy.count_le hfull
  · refine .inr ⟨h, _, hrequest, ⟨hafter, ?_, hold⟩, hpins⟩
    show (pool.out : Multiset ℕ) = _
    rw [hrequested.out, ← Multiset.cons_coe, hy.out_eq, Multiset.map_cons, Multiset.cons_add]
    rfl

/-- A handle is given back. -/
lemma release {h : Handle Page} (hy : y.Accounts count (h ::ₘ H)) :
    (Storage.release h y).Accounts count H ∧ (Storage.release h y).pins = y.pins := by
  refine ⟨⟨hy.sound.act (.release h), ?_, fun ticket hticket => ?_⟩, rfl⟩
  · show ((y.db.pool.out.erase h.ticket : List ℕ) : Multiset ℕ) = _
    rw [← Multiset.coe_erase, hy.out_eq, Multiset.map_cons, Multiset.cons_add,
      Multiset.erase_cons_head]
    rfl
  · exact hy.old ticket (List.mem_of_mem_erase hticket)

/-- An event that does not concern handles. -/
lemma manage (hy : y.Accounts count H) {e : Database.Event} (he : e.Manages) :
    Accounts count H { y with db := y.db.act e } := by
  have hsound := hy.sound.pool
  obtain ⟨hout, hrenews⟩ : (y.db.act e).pool.out = y.db.pool.out ∧
      y.db.pool.Renews (y.db.act e).pool := by
    cases e with
    | getPage | release | scanFile | scanTable => exact he.elim
    | openTable path schema name =>
      rcases hopen : y.db.openTable path schema name with ⟨error | file, db'⟩ <;>
        simp only [Database.act, hopen]
      · rw [Database.openTable_eq_error hopen]
        exact ⟨rfl, .of_frames rfl rfl⟩
      · rw [(Database.openTable_eq_ok hopen).2]
        exact ⟨Pool.out_discardAll _ _, hsound.renews_discardAll _⟩
    | addTable file held name => exact ⟨rfl, .of_frames rfl rfl⟩
    | discardPage page => exact ⟨Pool.out_discardAll _ [page], hsound.renews_discardPage page⟩
    | discardTable table => exact ⟨Pool.out_discardAll _ _, hsound.renews_discardAll _⟩
    | clearCache => exact ⟨Pool.out_discardAll _ _, hsound.renews_discardAll _⟩
    | clearCatalog => exact ⟨rfl, .of_frames rfl rfl⟩
    | write disk => exact ⟨rfl, .of_frames rfl rfl⟩
  refine ⟨hy.sound.act e, ?_, fun ticket hticket => ?_⟩
  · exact (congrArg _ hout).trans hy.out_eq
  · exact (hy.old ticket (hout ▸ hticket)).trans_le hrenews.1

/-- Others do something. -/
lemma act (hy : y.Accounts count H) (deed : Deed) : (y.act deed).Accounts count H := by
  cases deed with
  | take page =>
    obtain ⟨e, y', hrequest, hy', -⟩ | ⟨h, y', hrequest, hy', -⟩ := hy.request page <;>
      rcases hget : y.db.getPage page with ⟨e' | h', db⟩ <;>
      simp only [Storage.request, hget] at hrequest <;> cases hrequest <;>
      simp only [Company.act, hget]
    · exact hy'
    · refine ⟨hy'.sound, hy'.out_eq.trans ?_, hy'.old⟩
      rw [Multiset.map_cons, Multiset.cons_add, ← Multiset.add_cons]
      rfl
  | giveBack place =>
    rcases hplace : y.kept[place]? with _ | h <;> simp only [Company.act, hplace]
    · exact hy
    · obtain ⟨hlt, rfl⟩ := List.getElem?_eq_some_iff.1 hplace
      have hperm := (List.getElem_cons_eraseIdx_perm hlt).map Handle.ticket
      refine ⟨hy.sound.act (.release y.kept[place]), ?_, fun ticket hticket => ?_⟩
      · show ((y.db.pool.out.erase _ : List ℕ) : Multiset ℕ) = _
        rw [← Multiset.coe_erase, hy.out_eq, tickets, ← Multiset.coe_eq_coe.2 hperm, List.map_cons,
          ← Multiset.cons_coe, Multiset.add_cons, Multiset.erase_cons_head]
        rfl
      · exact hy.old ticket (List.mem_of_mem_erase hticket)
  | manage e he => exact hy.manage he

lemma run (hy : y.Accounts count H) (deeds : List Deed) : (y.run deeds).Accounts count H := by
  induction deeds generalizing y with
  | nil => exact hy
  | cons deed rest ih => exact ih (hy.act deed)

end Accounts

end Company

end RowStore
