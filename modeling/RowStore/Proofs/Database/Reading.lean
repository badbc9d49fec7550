import Mathlib
import RowStore.Proofs.Database.Coherence
import RowStore.Proofs.Query.Semantics

/-!
# Scans read what files hold

A scan gets its pages through the pool of a database, and it is not alone there: others request
pages, for which the pages of the scan have to give way, and discard pages, also the one that the
scan is on.  As long as nobody changes the file or the entry of its table, the scan hands out the
rows that the file has when it is read without a pool (`Database.delivers_contents`).

What is needed of the pool is that the pages of the table that are already there are up to date.
A page is, if file and entry have not changed since a moment when it was not resident
(`Database.Mirrors.run`).  From then on what a scan is supplied with is what the file holds
(`Database.supply`), and so it plays the rows of the file, as it would under any other supply.

The requests of the scan are noted, to be able to say that there was a frame for each of them.
-/

namespace RowStore

variable {σ : Type}

namespace Database

variable {db : Database} {count : ℕ} {file : HeapFile} {content : SparseBytes} {page : PageId}
  {e : Event}

/-! ## Pages that are up to date -/

/-- A file is registered, and it has a certain content. -/
structure Holds (file : HeapFile) (content : SparseBytes) (db : Database) : Prop where
  registered : db.catalog.heapFile file.id = .ok file
  content_eq : db.disk.content file.path = .ok content

/-- A page of a file that has a certain content is what the file holds, if it is resident. -/
structure Mirrors (count : ℕ) (file : HeapFile) (content : SparseBytes) (page : PageId)
    (db : Database) : Prop extends Holds file content db where
  sound : Sound count db
  table_eq : page.table = file.id
  fresh : ∀ {frame h}, db.pool.lookup page = some (frame, h) →
    file.readPage db.disk page = .ok h.content

namespace Mirrors

lemma loadPage_eq (hdb : Mirrors count file content page db) :
    db.loadPage page = file.readPage db.disk page := by
  rw [loadPage, hdb.table_eq, hdb.registered]
  rfl

/-- One event after which the file is registered and has the same content. -/
lemma act (hdb : Mirrors count file content page db) (e : Event)
    (hholds : Holds file content (db.act e)) :
    Mirrors count file content page (db.act e) := by
  have hsound := hdb.sound.act e
  have houtcome := outcome hdb.sound.pool e
  generalize db.act e = db' at houtcome hholds hsound ⊢
  refine ⟨hholds, hsound, hdb.table_eq, fun hfound => ?_⟩
  cases houtcome with
  | opened he hopen =>
    obtain ⟨-, rfl⟩ := openTable_eq_ok hopen
    rw [hdb.sound.pool.lookup_discardTable] at hfound
    exact hdb.fresh (Option.ite_none_left_eq_some.1 hfound).2
  | added he => exact hdb.fresh hfound
  | forgotten he => exact hdb.fresh hfound
  | written he =>
    rw [← HeapFile.readPage_congr hdb.content_eq hholds.content_eq]
    exact hdb.fresh hfound
  | pooled hsound' hpool =>
    obtain hold | ⟨-, hload⟩ := hpool hfound
    · exact hdb.fresh hold
    · exact hdb.loadPage_eq.symm.trans hload

lemma getPage (hdb : Mirrors count file content page db) (other : PageId) :
    Mirrors count file content page (db.getPage other).2 :=
  hdb.act (.getPage other) ⟨hdb.registered, hdb.content_eq⟩

lemma release (hdb : Mirrors count file content page db) (h : Handle Page) :
    Mirrors count file content page (db.release h) :=
  hdb.act (.release h) ⟨hdb.registered, hdb.content_eq⟩

/-- Several events during which the file is registered and has the same content. -/
lemma run (hdb : Mirrors count file content page db) {events : List Event}
    (hholds : ∀ during, during <+: events → Holds file content (db.run during)) :
    Mirrors count file content page (db.run events) := by
  induction events generalizing db with
  | nil => exact hdb
  | cons e rest ih =>
    refine ih (hdb.act e (hholds [e] ⟨rest, rfl⟩)) fun during hprefix => ?_
    exact hholds (e :: during) (List.cons_prefix_cons.2 ⟨rfl, hprefix⟩)

end Mirrors

/-! ## Others that only read -/

/-- Neither the files nor the catalog are changed in the event. -/
def Event.Reads : Event → Prop
  | .openTable .. => False
  | .addTable .. => False
  | .clearCatalog => False
  | .write _ => False
  | _ => True

lemma act_of_reads (hsound : db.pool.Sound count none) (he : e.Reads) :
    (db.act e).catalog = db.catalog ∧ (db.act e).disk = db.disk := by
  have houtcome := outcome hsound e
  generalize db.act e = db' at houtcome ⊢
  cases houtcome with
  | opened heq => exact (heq ▸ he : Event.Reads (.openTable ..)).elim
  | added heq => exact (heq ▸ he : Event.Reads (.addTable ..)).elim
  | forgotten heq => exact (heq ▸ he : Event.Reads .clearCatalog).elim
  | written heq => exact (heq ▸ he : Event.Reads (.write _)).elim
  | pooled => exact ⟨rfl, rfl⟩

lemma Sound.run_of_reads (hdb : Sound count db) {events : List Event}
    (hreads : ∀ e ∈ events, e.Reads) :
    (db.run events).catalog = db.catalog ∧ (db.run events).disk = db.disk := by
  induction events generalizing db with
  | nil => exact ⟨rfl, rfl⟩
  | cons e rest ih =>
    obtain ⟨hcatalog, hdisk⟩ := act_of_reads hdb.pool (hreads e List.mem_cons_self)
    obtain ⟨hcatalog', hdisk'⟩ :=
      ih (hdb.act e) fun e' he' => hreads e' (List.mem_cons_of_mem e he')
    exact ⟨hcatalog'.trans hcatalog, hdisk'.trans hdisk⟩

lemma Mirrors.run_of_reads (hdb : Mirrors count file content page db) {events : List Event}
    (hreads : ∀ e ∈ events, e.Reads) : Mirrors count file content page (db.run events) := by
  refine hdb.run fun during hstart => ?_
  obtain ⟨hcatalog, hdisk⟩ := hdb.sound.run_of_reads fun e he => hreads e (hstart.subset he)
  exact ⟨hcatalog ▸ hdb.registered, hdisk ▸ hdb.content_eq⟩

/-! ## The supply of a scan -/

/-- There was a frame for the page of a request. -/
def Served (request : PageId × Database) : Prop :=
  request.2.pool.HasRoom ∨ request.2.pool.contains request.1 = true

/-- A request for a page that is up to date gives what the file holds, or finds no frame. -/
lemma Mirrors.request (hdb : Mirrors count file content page db) {p : Page}
    (hread : file.readPage db.disk page = .ok p) :
    ∃ answer db', db.getPage page = (answer, db') ∧ db'.disk = db.disk ∧
      ((∃ e, answer = .error e ∧ ¬ Served (page, db)) ∨
        ∃ h, answer = .ok h ∧ h.content = p) := by
  have hsound := hdb.sound.pool
  have hload : db.loadPage page = .ok p := hdb.loadPage_eq.trans hread
  obtain ⟨answer, pool, heq, hrequested⟩ := getPage_requested hsound page
  refine ⟨answer, _, heq, rfl, ?_⟩
  rcases answer with e | h
  · obtain ⟨habsent, hfailed | ⟨-, hfull, -⟩⟩ := hrequested.refused
    · cases hload.symm.trans hfailed
    · refine .inl ⟨e, rfl, ?_⟩
      rintro (hroom | hcontains)
      · exact hfull hroom
      · rw [hsound.contains_eq, habsent] at hcontains
        cases hcontains
  · refine .inr ⟨h, rfl, ?_⟩
    obtain ⟨frame, hresident⟩ | ⟨-, hloaded⟩ := hrequested.content
    · exact Except.ok.inj ((hdb.fresh hresident).symm.trans hread)
    · exact Except.ok.inj (hloaded.symm.trans hload)

/-- A supply that others leave in order, as long as they only read, and that refuses a request only
if there is no frame for it. -/
structure Shares {file : HeapFile} {pages : List Page}
    (S : Supply (Watched Database) file pages) : Prop where
  other : ∀ {held x e}, Event.Reads e → S.Good held x →
    S.Good held { x with world := x.world.act e }
  served : ∀ {e x}, S.Refused e x → ∃ request ∈ x.requests, ¬ Served request

/-- What a scan is supplied with is what the file holds, among others that only read. -/
def supply (count : ℕ) (content : SparseBytes) {pages : List Page} {d : Disk}
    (hcount : file.pageCount d = .ok pages.length)
    (hread : ∀ n (h : n < pages.length), file.readPage d ⟨file.id, UInt32.ofNat n⟩ = .ok pages[n])
    {meanwhile : ℕ → List Event} (hmeanwhile : ∀ n, ∀ e ∈ meanwhile n, e.Reads) :
    Supply (Watched Database) file pages where
  Good _ x := (∀ page, page.table = file.id → Mirrors count file content page x.world) ∧
    x.world.disk = d ∧ x.meanwhile = fun n db => db.run (meanwhile n)
  Refused _ x := ∃ request ∈ x.requests, ¬ Served request
  pageCount hx := (congrArg file.pageCount hx.2.1).trans hcount
  request := by
    rintro ⟨world, _, requests⟩ n ⟨hmirrors, hdisk, rfl⟩ hn
    let page : PageId := ⟨file.id, UInt32.ofNat n⟩
    have hreads := hmeanwhile requests.length
    have hdisk' := ((hmirrors page rfl).sound.run_of_reads hreads).2.trans hdisk
    obtain ⟨answer, db', heq, hsame, hanswer⟩ :=
      ((hmirrors page rfl).run_of_reads hreads).request (hdisk' ▸ hread n hn)
    have hafter : ∀ other, other.table = file.id → Mirrors count file content other db' := by
      intro other htable
      have h := ((hmirrors other htable).run_of_reads hreads).getPage page
      rwa [heq] at h
    have hrequest : Storage.request page .readOnly
        (⟨world, fun n db => db.run (meanwhile n), requests⟩ : Watched Database) =
          (answer, ⟨db', fun n db => db.run (meanwhile n),
            requests ++ [(page, world.run (meanwhile requests.length))]⟩) := by
      simp only [Storage.request, heq]
    obtain ⟨e, rfl, hrefused⟩ | ⟨h, rfl, hcontent⟩ := hanswer
    · exact .inl ⟨e, _, hrequest, ⟨_, by simp, hrefused⟩, hafter, hsame.trans hdisk', rfl⟩
    · exact .inr ⟨h, _, hrequest, hcontent, hafter, hsame.trans hdisk', rfl⟩
  release := by
    rintro h x ⟨hmirrors, hx⟩
    exact ⟨fun page htable => (hmirrors page htable).release h, hx⟩

lemma shares_supply {pages : List Page} {d : Disk} (hcount : file.pageCount d = .ok pages.length)
    (hread : ∀ n (h : n < pages.length), file.readPage d ⟨file.id, UInt32.ofNat n⟩ = .ok pages[n])
    {meanwhile : ℕ → List Event} (hmeanwhile : ∀ n, ∀ e ∈ meanwhile n, e.Reads) :
    Shares (supply count content hcount hread hmeanwhile) where
  other := by
    rintro held x e he ⟨hmirrors, hdisk, hevents⟩
    have hreads : ∀ e' ∈ [e], e'.Reads := List.forall_mem_singleton.2 he
    have hsound := (hmirrors ⟨file.id, 0⟩ rfl).sound
    exact ⟨fun page htable => (hmirrors page htable).run_of_reads hreads,
      (hsound.run_of_reads hreads).2.trans hdisk, hevents⟩
  served := id

end Database

/-! ## Turns -/

/-- The calls on a cursor among several turns, in which other things may happen too. -/
inductive Turn where
  | ask (call : Cursor.Ask)
  | other (e : Database.Event)

/-- The call that is made in a turn. -/
def Turn.ask? : Turn → Option Cursor.Ask
  | .ask call => some call
  | .other _ => none

/-- The replies of a cursor in several turns, and the state and the world after them. -/
def Cursor.turns (c : Cursor (Watched Database) σ) :
    List Turn → σ → Watched Database → List Reply × σ × Watched Database
  | [], s, x => ([], s, x)
  | .ask call :: rest, s, x =>
    let (told, s, x) := c.replies [call] s x
    let (later, s, x) := c.turns rest s x
    (told ++ later, s, x)
  | .other e :: rest, s, x => c.turns rest s { x with world := x.world.act e }

/-- A cursor replies as rows do, whatever others do in between, as long as they only read and there
is a frame for every request. -/
def Cursor.Delivers (c : Cursor (Watched Database) σ) (s : σ) (x : Watched Database)
    (rows : List Row) : Prop :=
  ∀ turns told s' x', (∀ e, .other e ∈ turns → e.Reads) → c.turns turns s x = (told, s', x') →
    (∀ request ∈ x'.requests, Database.Served request) →
      told = (Answers.replies (turns.filterMap Turn.ask?) (Answers.ofRows rows)).1

/-- Opening a cursor succeeds, and it delivers rows that can be read; or it fails as reading them
does. -/
def Cursor.Scans (c : Cursor (Watched Database) σ) (s : σ) (x : Watched Database)
    (contents : Except Error (List Row)) : Prop :=
  ∃ answer s' x', c.start s x = (answer, s', x') ∧
    ((∃ e, answer = .error (.error e) ∧ contents = .error e) ∨
      ∃ rows, answer = .ok () ∧ contents = .ok rows ∧ c.Delivers s' x' rows)

/-- A list of answers replies to one call after the other. -/
lemma Answers.replies_cons (call : Cursor.Ask) (rest : List Cursor.Ask) (answers : List Answer) :
    (replies (call :: rest) answers).1 =
      (replies [call] answers).1 ++ (replies rest (replies [call] answers).2).1 := by
  cases call <;> rfl

/-- One call on a scan of a file, which can be refused. -/
lemma Supply.reply {W : Type} [Storage W] {file : HeapFile} {pages : List Page}
    {S : Supply W file pages} {answers : List Answer} {s : FileScan}
    (hs : FileScan.At file pages answers s) {w : W} (hw : S.Good s.handle? w)
    (call : Cursor.Ask) :
    ∃ told s' w', FileScan.cursor.replies [call] s w = (told, s', w') ∧ S.Good s'.handle? w' ∧
      ((∃ e, S.Refused e w') ∨ told = (Answers.replies [call] answers).1 ∧
        FileScan.At file pages (Answers.replies [call] answers).2 s') := by
  cases call with
  | hasNext =>
    obtain ⟨answer, s', w', heq, hgood, hpost⟩ := Supply.hasNext hs hw
    refine ⟨[.hasNext answer], s', w', ?_, hgood, ?_⟩
    · simp only [Cursor.replies, FileScan.cursor, heq]
    · obtain ⟨⟨e, he, -⟩, -⟩ | ⟨rfl, hs', -⟩ := hpost
      · exact .inl ⟨e, he⟩
      · exact .inr ⟨rfl, hs'⟩
  | next =>
    obtain ⟨answer, s', w', heq, hgood, hpost⟩ := Supply.next hs hw
    refine ⟨[.next answer], s', w', ?_, hgood, ?_⟩
    · simp only [Cursor.replies, FileScan.cursor, heq]
    · obtain ⟨⟨e, he, -⟩, -⟩ | ⟨rfl, hs'⟩ := hpost
      · exact .inl ⟨e, he⟩
      · exact .inr ⟨rfl, hs'⟩

namespace FileScan

/-- A note that was taken is kept in all turns. -/
lemma mem_requests_turns (turns : List Turn) {s : FileScan} {x : Watched Database}
    {request : PageId × Database} (hrequest : request ∈ x.requests) :
    request ∈ (cursor.turns turns s x).2.2.requests := by
  have hclosed : Storage.Closed fun x : Watched Database => request ∈ x.requests :=
    ⟨fun hx _ => List.mem_append_left _ hx, fun hx _ => hx⟩
  induction turns generalizing s x with
  | nil => exact hrequest
  | cons turn rest ih =>
    cases turn with
    | ask call =>
      cases call with
      | hasNext => exact ih (hclosed.act_file .hasNext s hrequest)
      | next => exact ih (hclosed.act_file .next s hrequest)
    | other e => exact ih (x := { x with world := x.world.act e }) hrequest

end FileScan

/-- An open scan of a table is one of its file. -/
lemma TableScan.turns_some (t : TableScan) (turns : List Turn) (scan : FileScan)
    (x : Watched Database) :
    t.cursor.turns turns (some scan) x =
      ((FileScan.cursor.turns turns scan x).1, some (FileScan.cursor.turns turns scan x).2.1,
        (FileScan.cursor.turns turns scan x).2.2) := by
  induction turns generalizing scan x with
  | nil => rfl
  | cons turn rest ih =>
    cases turn with
    | ask call =>
      cases call with
      | hasNext =>
        simp only [Cursor.turns, Cursor.replies, cursor, forward, FileScan.cursor] at ih ⊢
        rw [ih]
      | next =>
        simp only [Cursor.turns, Cursor.replies, cursor, forward, FileScan.cursor] at ih ⊢
        rw [ih]
    | other e => exact ih scan _

lemma TableScan.delivers_some (t : TableScan) {scan : FileScan} {x : Watched Database}
    {rows : List Row} (h : FileScan.cursor.Delivers scan x rows) :
    t.cursor.Delivers (some scan) x rows := by
  intro turns told s' x' hreads hturns hserved
  rw [t.turns_some] at hturns
  cases hturns
  exact h turns _ _ _ hreads rfl hserved

namespace Database.Shares

variable {file : HeapFile} {pages : List Page} {S : Supply (Watched Database) file pages}

/-- The replies of a scan for which some answers are left are the replies of these.  By induction on
the turns: after each of them the state of the scan stands for the answers that are left then. -/
lemma told_eq (hS : Shares S) {turns : List Turn} (hreads : ∀ e, .other e ∈ turns → e.Reads)
    {answers : List Answer} {s s' : FileScan} {x x' : Watched Database} {told : List Cursor.Reply}
    (hs : FileScan.At file pages answers s) (hx : S.Good s.handle? x)
    (hturns : FileScan.cursor.turns turns s x = (told, s', x'))
    (hserved : ∀ request ∈ x'.requests, Database.Served request) :
    told = (Answers.replies (turns.filterMap Turn.ask?) answers).1 := by
  induction turns generalizing answers s x told with
  | nil =>
    cases hturns
    rfl
  | cons turn rest ih =>
    have hlater : ∀ e, .other e ∈ rest → e.Reads := fun e he => hreads e (by simp [he])
    cases turn with
    | ask call =>
      obtain ⟨first, s₁, x₁, hcall, hx₁, hpost⟩ := Supply.reply hs hx call
      rcases hrest : FileScan.cursor.turns rest s₁ x₁ with ⟨later, s₂, x₂⟩
      simp only [Cursor.turns, hcall, hrest, Prod.mk.injEq] at hturns
      obtain ⟨rfl, rfl, rfl⟩ := hturns
      obtain ⟨e, he⟩ | ⟨rfl, hs₁⟩ := hpost
      · -- The request that was refused is still noted at the end, and was not served.
        obtain ⟨request, hrequest, hrefused⟩ := hS.served he
        have hnoted := FileScan.mem_requests_turns rest (s := s₁) hrequest
        rw [hrest] at hnoted
        exact absurd (hserved request hnoted) hrefused
      · rw [ih hlater hs₁ hx₁ hrest]
        exact (Answers.replies_cons call (rest.filterMap Turn.ask?) answers).symm
    | other e => exact ih hlater hs (hS.other (hreads e (by simp)) hx) hturns

/-- A scan that was just opened. -/
lemma delivers (hS : Shares S) {x : Watched Database} (hx : S.Good none x) :
    FileScan.cursor.Delivers ⟨file, some (ScanProgress.ofPages pages.length)⟩ x
      (pages.flatMap Page.rows) := by
  intro turns told s' x' hreads hturns hserved
  have hat : FileScan.At file pages (Answers.ofRows (pages.flatMap Page.rows))
      ⟨file, some (ScanProgress.ofPages pages.length)⟩ := ⟨_, rfl, rfl, rfl⟩
  exact hS.told_eq hreads hat hx hturns hserved

end Database.Shares

namespace Database

variable {count : ℕ} {file : HeapFile} {content : SparseBytes} {meanwhile : ℕ → List Event}

/-- A page is up to date if there was a moment when it was not resident, and nothing has changed
since. -/
lemma Mirrors.of_run {config : Config} {disk : Disk} {events : List Event} {page : PageId}
    (hholds : Holds file content ((onDisk config disk).run events)) (htable : page.table = file.id)
    (hsince : ∀ frame h, ((onDisk config disk).run events).pool.lookup page = some (frame, h) →
      ∃ before after, events = before ++ after ∧
        ((onDisk config disk).run before).pool.lookup page = none ∧
        ∀ during, during <+: after →
          Holds file content ((onDisk config disk).run (before ++ during))) :
    Mirrors config.poolPages file content page ((onDisk config disk).run events) := by
  have hsound := fun events => (Sound.onDisk config disk).run events
  refine ⟨hholds, hsound events, htable, fun {frame h} hfound => ?_⟩
  obtain ⟨before, after, rfl, habsent, hduring⟩ := hsince frame h hfound
  have hbefore : Mirrors config.poolPages file content page ((onDisk config disk).run before) := by
    refine ⟨List.append_nil before ▸ hduring [] List.nil_prefix, hsound before, htable, ?_⟩
    intro frame h hfound
    rw [habsent] at hfound
    cases hfound
  simp only [run_append] at hduring hfound ⊢
  exact (hbefore.run hduring).fresh hfound

/-- **Scanning through the pool is reading the file.**  After any events, let a file with some
content be registered, and let each of its resident pages have been out of the pool at a moment
since which neither content nor entry have changed.  Then a scan of the file or of its table can be
opened if the file can be read without the pool; and whatever others do while the scan goes on, as
long as they only read and there is a frame for every request of the scan, it replies as the rows do
that the file has, page by page and slot by slot, when it is read without the pool. -/
theorem delivers_contents (config : Config) (_ : config.poolPages ≤ Pool.maxFrames) (disk : Disk)
    (events : List Event) (hholds : Holds file content ((onDisk config disk).run events))
    (hsince : ∀ page frame h, page.table = file.id →
      ((onDisk config disk).run events).pool.lookup page = some (frame, h) →
        ∃ before after, events = before ++ after ∧
          ((onDisk config disk).run before).pool.lookup page = none ∧
          ∀ during, during <+: after →
            Holds file content ((onDisk config disk).run (before ++ during)))
    (hmeanwhile : ∀ n, ∀ e ∈ meanwhile n, e.Reads) :
    let db := (onDisk config disk).run events
    let x : Watched Database := ⟨db, fun n db => db.run (meanwhile n), []⟩
    (∀ s, s.file = file → FileScan.cursor.Scans s x (file.contents db.disk)) ∧
    ∀ (t : TableScan) s, t.table = file.id → file.schema.shape = t.schema.shape →
      t.cursor.Scans s x (file.contents db.disk) := by
  intro db x
  have hmirrors : ∀ page, page.table = file.id → Mirrors config.poolPages file content page db :=
    fun page htable => .of_run hholds htable fun frame h => hsince page frame h htable
  have hentry : ∀ {table}, table = file.id → Storage.heapFile table x = .ok file := by
    rintro _ rfl
    exact hholds.registered
  rcases hcount : file.pageCount db.disk with e | count
  · have hcontents := HeapFile.contents_eq_error hcount
    refine ⟨?_, fun t s htable hshape => ?_⟩
    · rintro s rfl
      exact ⟨_, _, _, FileScan.start_of_error hcount, .inl ⟨e, rfl, hcontents⟩⟩
    · exact ⟨_, _, _, TableScan.start_of_error (hentry htable) hshape hcount,
        .inl ⟨e, rfl, hcontents⟩⟩
  · obtain ⟨pages, rfl, hread⟩ := HeapFile.exists_pages hholds.content_eq hcount
    have hcontents := HeapFile.contents_eq_ok_iff.2 ⟨pages, hcount, hread, rfl⟩
    let S := supply config.poolPages content hcount hread hmeanwhile
    have hS : Shares S := shares_supply ..
    have hgood : ∀ held, S.Good held x := fun _ => ⟨hmirrors, rfl, rfl⟩
    have hletGo : ∀ old : FileScan, S.Good none (old.letGo x) := fun old =>
      FileScan.letGo_of_release (fun _ _ => S.release) (hgood old.handle?)
    refine ⟨?_, fun t s htable hshape => ?_⟩
    · rintro s rfl
      exact ⟨_, _, _, FileScan.start_of_ok hcount, .inr ⟨_, rfl, hcontents, hS.delivers (hletGo s)⟩⟩
    · refine ⟨_, _, _, TableScan.start_of_ok (hentry htable) hshape hcount,
        .inr ⟨_, rfl, hcontents, t.delivers_some ?_⟩⟩
      rcases s with _ | old
      · exact hS.delivers (hgood none)
      · exact hS.delivers (hletGo old)

/-- A page with 7 and 9, and one with 11. -/
def numbersBytes : SparseBytes :=
  .ofList [0, 0, 0, 3, 0, 0, 0, 7, 0, 0, 0, 9, 0, 0, 0, 1, 0, 0, 0, 11, 0, 0, 0, 0]

/-- The disk with these pages in a file. -/
def numbersDisk : Disk := (Disk.ofHome []).put "/a" numbersBytes

/-- The file, for rows of one integer. -/
def numbersOnDisk : HeapFile := { Plan.numbersFile with id := TableId.ofPath "/a", path := "/a" }

/-- A database with two frames, in which the file was opened as a table. -/
def numbersOpened : Database :=
  { onDisk ⟨8, 2⟩ numbersDisk with
    catalog := Catalog.empty.add numbersOnDisk "a"
    pool := ((Pool.ofFrames 2).discardTable numbersOnDisk.id).2 }

lemma run_openTable_numbers :
    (onDisk ⟨8, 2⟩ numbersDisk).run [.openTable "a" Plan.numbers "a"] = numbersOpened := by cbv

/-- The scan of the table. -/
def numbersTable : TableScan := ⟨numbersOnDisk.id, none, Plan.numbers⟩

/-- The first page of the table. -/
def numbersPage : PageId := ⟨numbersOnDisk.id, 0⟩

/-- A row of the table. -/
def numbersRow (n : Int32) (page : UInt32) (slot : UInt16) : Row :=
  ⟨Plan.numbers, [some (.int n)], some ⟨⟨numbersOnDisk.id, page⟩, slot⟩⟩

/-- While the scan is on the first page, others discard it, and then everything else. -/
def numbersTurns : List Turn :=
  [.ask .next, .other (.discardPage numbersPage), .ask .next, .other .clearCache, .ask .next,
    .ask .hasNext]

/-- The first page is in the pool, and others request it before every request of the scan. -/
theorem delivers_contents_numbers :
    ∃ s x, numbersTable.cursor.start none
        (⟨(onDisk ⟨8, 2⟩ numbersDisk).run
            ([.openTable "a" Plan.numbers "a"] ++ [.getPage numbersPage]),
          fun _ db => db.run [.getPage numbersPage], []⟩ : Watched Database) = (.ok (), s, x) ∧
      (numbersTable.cursor.turns numbersTurns s x).1 =
        [.next (.ok (numbersRow 7 0 0)), .next (.ok (numbersRow 9 0 1)),
          .next (.ok (numbersRow 11 1 0)), .hasNext (.ok false)] := by
  have hholds : ∀ during, during <+: [Event.getPage numbersPage] →
      Holds numbersOnDisk numbersBytes
        ((onDisk ⟨8, 2⟩ numbersDisk).run ([.openTable "a" Plan.numbers "a"] ++ during)) := by
    intro during hprefix
    rw [run_append, run_openTable_numbers]
    obtain rfl | ⟨rest, rfl, hrest⟩ := List.prefix_cons_iff.1 hprefix
    · exact ⟨rfl, rfl⟩
    · obtain rfl := List.prefix_nil.1 hrest
      exact ⟨rfl, rfl⟩
  have habsent : ∀ page, numbersOpened.pool.lookup page = none := by
    intro page
    show ((Pool.ofFrames 2).discardTable numbersOnDisk.id).2.lookup page = none
    rw [(Pool.Sound.ofFrames 2).lookup_discardTable]
    exact ite_self _
  have hmeanwhile : ∀ n : ℕ, ∀ e ∈ (fun _ => [Event.getPage numbersPage]) n, e.Reads := by
    intro n e he
    obtain rfl := List.mem_singleton.1 he
    trivial
  obtain ⟨-, htable⟩ := delivers_contents ⟨8, 2⟩ (by decide) numbersDisk _
    (hholds _ (List.prefix_refl _))
    (fun page _ _ _ _ => ⟨_, _, rfl, by rw [run_openTable_numbers]; exact habsent page, hholds⟩)
    hmeanwhile
  rw [run_append, run_openTable_numbers] at htable ⊢
  obtain ⟨_, s, x, hstart, ⟨e, -, he⟩ | ⟨rows, rfl, hrows, hdelivers⟩⟩ :=
    htable numbersTable none rfl rfl
  · cases he
  cases hstart
  obtain rfl : _ = rows := Except.ok.inj hrows
  refine ⟨_, _, rfl, hdelivers numbersTurns _ _ _ ?_ rfl fun request hrequest => ?_⟩
  · intro e he
    simp only [numbersTurns, List.mem_cons, reduceCtorEq, Turn.other.injEq, List.not_mem_nil,
      false_or, or_false] at he
    obtain rfl | rfl := he <;> trivial
  · -- The first page is resident when the scan requests it, and there is an empty frame for the
    -- second one.
    have hframe : (request.2.pool.contains request.1 || !request.2.pool.free.isEmpty) = true := by
      revert hrequest
      revert request
      refine List.all_eq_true.1 ?_
      cbv
    rw [Bool.or_eq_true] at hframe
    obtain hcontains | hfree := hframe
    · exact .inr hcontains
    · exact .inl (.inl fun hnil => by rw [hnil] at hfree; cases hfree)

end Database

end RowStore
