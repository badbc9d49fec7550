import RowStore.Proofs.Database.Company
import RowStore.Proofs.Query.Following

/-!
# A database left alone

While others only keep what they have, a database is a source (`Company.source`): which pages are
held settles how a request is answered.

Much else depends on the history of the pool, first of all which pages are resident without being
pinned.  It shows in how many requests are hits, but not in what they are answered with: there is
room for a page unless every frame holds a pinned one, and a page that is resident could also be
loaded.  The latter takes files that have not been changed behind the back of the database.  A page
that is out of date is handed out as long as it stays in the pool, and read again once it had to
give way (`Database.Current`).
-/

namespace RowStore

/-! ## Pages that are up to date -/

/-- Every resident page of certain tables, as far as they are registered, is what would be loaded
for it. -/
def Database.Current (Tables : TableId → Prop) (db : Database) : Prop :=
  ∀ page frame h, db.pool.lookup page = some (frame, h) → Tables page.table →
    ∀ file, db.catalog.heapFile page.table = .ok file → db.loadPage page = .ok h.content

lemma Database.loadPage_congr {db db' : Database} (hcatalog : db'.catalog = db.catalog)
    (hdisk : db'.disk = db.disk) (page : PageId) : db'.loadPage page = db.loadPage page := by
  rw [loadPage, loadPage, hcatalog, hdisk]

/-- A page that is loaded has the id that was asked for. -/
lemma Database.id_of_loadPage {db : Database} {page : PageId} {content : Page}
    (h : db.loadPage page = .ok content) : content.id = page := by
  obtain ⟨file, -, hread⟩ := exists_readPage_of_loadPage h
  obtain ⟨data, hdecode⟩ := HeapFile.exists_decode_of_readPage hread
  exact Page.id_of_decode hdecode

/-- Nobody writes to the files, and no table is registered past its resident pages. -/
def Database.Event.SparesPages : Event → Prop
  | .write _ => False
  | .addTable .. => False
  | _ => True

/-- As long as the pages are spared, all of them are up to date. -/
lemma Database.Current.act {Tables : TableId → Prop} {db : Database} {count : ℕ}
    (hdb : db.Current Tables) (hsound : db.Sound count) {e : Event} (he : e.SparesPages) :
    (db.act e).Current Tables := by
  have houtcome := outcome hsound.pool e
  generalize db.act e = db' at houtcome ⊢
  intro page frame h hfound htable file hfile
  cases houtcome with
  | opened _ hopen =>
    obtain ⟨-, rfl⟩ := openTable_eq_ok hopen
    rw [hsound.pool.lookup_discardTable] at hfound
    obtain ⟨hne, hfound⟩ := Option.ite_none_left_eq_some.1 hfound
    have hentry := hfile
    rw [Catalog.heapFile_add, if_neg fun heq => hne heq.symm] at hentry
    rw [← hdb page frame h hfound htable file hentry, loadPage, loadPage, hfile, hentry]
  | added heq => exact (heq ▸ he : Event.SparesPages (.addTable ..)).elim
  | forgotten => cases hfile
  | written heq => exact (heq ▸ he : Event.SparesPages (.write _)).elim
  | pooled _ hpool =>
    obtain hold | ⟨-, hload⟩ := hpool hfound
    · exact hdb page frame h hold htable file hfile
    · exact hload

/-- The deed leaves the pages up to date that are. -/
def Deed.SparesPages : Deed → Prop
  | .manage e _ => e.SparesPages
  | _ => True

namespace Company

variable {y y₀ : Company} {count : ℕ} {H : Multiset (Handle Page)} {Tables : TableId → Prop}

lemma current_run (config : Config) (disk : Disk) {deeds : List Deed}
    (hdeeds : ∀ d ∈ deeds, d.SparesPages) (Tables : TableId → Prop) :
    ((onDisk config disk).run deeds).db.Current Tables := by
  suffices key : ∀ y : Company, y.Accounts config.poolPages 0 → y.db.Current Tables →
      (y.run deeds).db.Current Tables by
    exact key _ (accounts_onDisk config disk) fun _ _ _ h => by cases h
  induction deeds with
  | nil => exact fun y _ hy => hy
  | cons d rest ih =>
    intro y haccounts hy
    refine ih (fun d' hd' => hdeeds d' (List.mem_cons_of_mem d hd')) (y.act d) (haccounts.act d) ?_
    have hact : ∀ e : Database.Event, e.SparesPages → (y.db.act e).Current Tables :=
      fun e he => hy.act haccounts.sound he
    cases d with
    | take page =>
      have hget := hact (.getPage page) trivial
      rw [Database.act] at hget
      rcases heq : y.db.getPage page with ⟨e | h, db⟩ <;> rw [heq] at hget <;>
        simp only [Company.act, heq] <;> exact hget
    | giveBack place =>
      rcases hplace : y.kept[place]? with _ | h <;> simp only [Company.act, hplace]
      · exact hy
      · exact hact (.release h) trivial
    | manage e he => exact hact e (hdeeds (.manage e he) List.mem_cons_self)

/-! ## What a request is answered with -/

/-- The pages that others pin. -/
def pinnedPages (y : Company) : Finset PageId := y.db.pool.pinnedPages y.tickets

/-- What a request is answered with, in a pool with so many frames, while certain pages are held
besides those that others pin. -/
def answerTo (y : Company) (count : ℕ) (Q : Finset PageId) (id : PageId) : Except Error Page :=
  (y.db.loadPage id).bind fun content =>
    if id ∈ Q ∪ y.pinnedPages ∨ (Q ∪ y.pinnedPages).card < count then .ok content
    else .error .poolFull

/-- Since a company was in a certain state, others have done nothing, and the handles that were
given out are to pages that are still resident. -/
structure Undisturbed (Tables : TableId → Prop) (y₀ : Company) (count : ℕ)
    (H : Multiset (Handle Page)) (y : Company) : Prop where
  accounts : y.Accounts count H
  kept_eq : y.kept = y₀.kept
  catalog_eq : y.db.catalog = y₀.db.catalog
  disk_eq : y.db.disk = y₀.db.disk
  current : y.db.Current Tables
  resident : ∀ h ∈ H, ∃ frame, y.db.pool.lookup h.content.id = some (frame, h)
  pinnedPages_eq : y.pinnedPages = y₀.pinnedPages

namespace Undisturbed

lemma refl (hy : y.Accounts count 0) (hcurrent : y.db.Current Tables) :
    Undisturbed Tables y count 0 y where
  accounts := hy
  kept_eq := rfl
  catalog_eq := rfl
  disk_eq := rfl
  current := hcurrent
  resident _ h := absurd h (Multiset.notMem_zero _)
  pinnedPages_eq := rfl

lemma mem_out_iff (hy : y.Accounts count H) {ticket : ℕ} :
    ticket ∈ y.db.pool.out ↔ (∃ h ∈ H, h.ticket = ticket) ∨ ticket ∈ y.tickets := by
  rw [← Multiset.mem_coe, hy.out_eq, Multiset.mem_add, Multiset.mem_map, Multiset.mem_coe]

/-- The pinned pages are those of the handles that were given out and those that others pin. -/
lemma pinnedPages_out (hy : Undisturbed Tables y₀ count H y) :
    y.db.pool.pinnedPages y.db.pool.out = pagesOf H ∪ y₀.pinnedPages := by
  have hsound := hy.accounts.sound.pool
  rw [← hy.pinnedPages_eq]
  ext id
  rw [pinnedPages, Finset.mem_union, hsound.mem_pinnedPages_iff, hsound.mem_pinnedPages_iff,
    pagesOf, Multiset.mem_toFinset, Multiset.mem_map]
  constructor
  · rintro ⟨frame, h, hfound, hout⟩
    obtain ⟨h', hmem, hticket⟩ | hother := (mem_out_iff hy.accounts).1 hout
    · obtain ⟨frame', hfound'⟩ := hy.resident h' hmem
      have hr := hsound.lookup_eq_some_iff.1 hfound
      have hr' := hsound.lookup_eq_some_iff.1 hfound'
      obtain rfl := hsound.ticket_inj hr' hr hticket
      cases hr.symm.trans hr'
      exact .inl ⟨h, hmem, rfl⟩
    · exact .inr ⟨frame, h, hfound, hother⟩
  · rintro (⟨h, hmem, rfl⟩ | ⟨frame, h, hfound, hother⟩)
    · obtain ⟨frame, hfound⟩ := hy.resident h hmem
      exact ⟨frame, h, hfound, (mem_out_iff hy.accounts).2 (.inl ⟨h, hmem, rfl⟩)⟩
    · exact ⟨frame, h, hfound, (mem_out_iff hy.accounts).2 (.inr hother)⟩

/-- A request for a page of a registered table. -/
lemma request (hy : Undisturbed Tables y₀ count H y) {id : PageId} (htable : Tables id.table)
    {file : HeapFile} (hfile : y₀.db.catalog.heapFile id.table = .ok file) :
    ∃ answer y', Storage.request id .readOnly y = (answer, y') ∧
      answer.map Handle.content = y₀.answerTo count (pagesOf H) id ∧
      ∀ h, answer = .ok h → h.content.id = id ∧ Undisturbed Tables y₀ count (h ::ₘ H) y' := by
  have hsound := hy.accounts.sound.pool
  obtain ⟨answer, pool, heq, hrequested⟩ := Database.getPage_requested hsound id
  have hrequest := request_eq heq
  have hentry : y.db.catalog.heapFile id.table = .ok file := hy.catalog_eq ▸ hfile
  refine ⟨answer, _, hrequest, ?_, ?_⟩
  · rw [answerTo, ← Database.loadPage_congr hy.catalog_eq hy.disk_eq, ← hy.pinnedPages_out]
    have hresident : ∀ frame h, y.db.pool.lookup id = some (frame, h) →
        y.db.loadPage id = .ok h.content :=
      fun frame h hfound => hy.current id frame h hfound htable file hentry
    rcases hload : y.db.loadPage id with e | content
    · cases hrequested with
      | hit hfound => cases (hresident _ _ hfound).symm.trans hload
      | failed _ hfailed =>
        cases hfailed.symm.trans hload
        rfl
      | full _ hloaded => cases hloaded.symm.trans hload
      | loaded _ hloaded => cases hloaded.symm.trans hload
    · exact hrequested.answer_eq hsound hload fun frame h hfound =>
        Except.ok.inj ((hresident frame h hfound).symm.trans hload)
  · rintro h rfl
    obtain ⟨_, _, hother, -⟩ | ⟨_, _, hother, haccounts, -⟩ := hy.accounts.request id <;>
      cases hrequest.symm.trans hother
    obtain ⟨frame, hfound⟩ := hrequested.exists_lookup hsound
    have hcurrent : Database.Current Tables { y.db with pool := pool } := by
      intro other frame' h' hfound' htable' file' hfile'
      obtain hold | ⟨rfl, -, hloaded⟩ := hrequested.lookup hsound hfound'
      · exact hy.current other frame' h' hold htable' file' hfile'
      · exact hloaded
    have hid := Database.id_of_loadPage (hcurrent id frame h hfound htable file hentry)
    refine ⟨hid, haccounts, hy.kept_eq, hy.catalog_eq, hy.disk_eq, hcurrent, fun h' hmem => ?_, ?_⟩
    · obtain rfl | hmem := Multiset.mem_cons.1 hmem
      · exact ⟨frame, hid.symm ▸ hfound⟩
      · obtain ⟨frame', hfound'⟩ := hy.resident h' hmem
        exact ⟨frame', hrequested.lookup_of_pinned hsound hfound'
          ((mem_out_iff hy.accounts).2 (.inl ⟨h', hmem, rfl⟩))⟩
    · refine Eq.trans ?_ hy.pinnedPages_eq
      exact hrequested.pinnedPages_eq hsound
        (fun ticket hticket => (mem_out_iff hy.accounts).2 (.inr hticket)) hy.accounts.old

lemma release {h : Handle Page} (hy : Undisturbed Tables y₀ count (h ::ₘ H) y) :
    Undisturbed Tables y₀ count H (Storage.release h y) where
  accounts := hy.accounts.release.1
  kept_eq := hy.kept_eq
  catalog_eq := hy.catalog_eq
  disk_eq := hy.disk_eq
  current := hy.current
  resident h' hmem := hy.resident h' (Multiset.mem_cons_of_mem hmem)
  pinnedPages_eq := hy.pinnedPages_eq

end Undisturbed

/-- A company in which others do nothing is a source for tables whose pages are up to date. -/
def source (Tables : TableId → Prop) (y : Company) (count : ℕ)
    (hid : ∀ {table file}, y.db.catalog.heapFile table = .ok file → file.id = table) :
    Source Company where
  Serves := Tables
  heapFile := y.db.catalog.heapFile
  pageCount file := file.pageCount y.db.disk
  page := y.answerTo count
  Good H y' := Undisturbed Tables y count H y'
  id_eq := hid
  heapFile_eq hy table := congrArg (Catalog.heapFile · table) hy.catalog_eq
  pageCount_eq hy file := congrArg file.pageCount hy.disk_eq
  refuse hy _ _ _ htable hfile hpage := by
    obtain ⟨answer, y', hrequest, hanswer, -⟩ := hy.request htable hfile
    rw [hpage] at hanswer
    rcases answer with e | h <;> cases hanswer
    exact ⟨y', hrequest⟩
  grant hy _ _ _ htable hfile hpage := by
    obtain ⟨answer, y', hrequest, hanswer, hgranted⟩ := hy.request htable hfile
    rw [hpage] at hanswer
    rcases answer with e | h <;> cases hanswer
    obtain ⟨hid, hy'⟩ := hgranted h rfl
    exact ⟨h, y', hrequest, rfl, hid, hy'⟩
  release hy := hy.release

end Company

end RowStore
