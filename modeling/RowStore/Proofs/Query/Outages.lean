import RowStore.Proofs.Database.Reading
import RowStore.Proofs.Query.Reordering

/-!
# Refused requests

A request for a page can be refused at any time, for instance while other callers keep every frame
of the pool pinned.  A cursor then tells its caller, and can be asked again.  Here it is shown that
nothing is lost or handed out twice by that, wherever in a plan and however often it happens
(`Plan.resume`).

What a plan reads from may be any page cache (`PageCache`).  Its state can have anything in it on
which its answers depend, so it can refuse requests in any pattern.  It only has to be faithful: a
page that it does hand out is what the file holds (`PageCache.Faithful`).  A database that others
use at the same time is such a cache, whatever they do to its pool (`Database.faithful_shared`).

Two things are known of a call there.

* It plays the same answers as with the cache that refuses nothing (`PageCache.calm`), as far as it
  comes, because an open cursor plays them under every service of the same catalog and disk
  (`Plan.opensAlike`).  So a call in which a request is refused leaves the answers as they were.
* Until a request is refused, it cannot tell the cache from the calm one (`Plan.cursors_inStep`).
  So a call answers as it should, or with the error of the one request that was refused during it.
-/

namespace RowStore

variable {W σ : Type}

/-! ## Page caches -/

/-- A page cache over the tables of a catalog. -/
structure PageCache (W : Type) where
  catalog : Catalog
  disk : Disk
  /-- What becomes of a request. -/
  getPage : PageId → W → Except Error (Handle Page) × W
  release : Handle Page → W → W

namespace PageCache

/-- What a page holds according to the file of its table. -/
def loadPage (c : PageCache W) (page : PageId) : Except Error Page := do
  (← c.catalog.heapFile page.table).readPage c.disk page

/-- The same cache without refusals: instead of refusing a page that can be read, it hands it out,
under a ticket that means nothing. -/
def calm (c : PageCache W) : PageCache W :=
  { c with
    getPage := fun page w =>
      match c.getPage page w with
      | (.error _, w) => ((c.loadPage page).map fun content => ⟨0, content⟩, w)
      | (.ok h, w) => (.ok h, w) }

/-- What is handed out is what the files hold, as long as the state of the cache is in order, which
it stays. -/
structure Faithful (c : PageCache W) (Good : W → Prop) : Prop where
  id_eq : ∀ {table file}, c.catalog.heapFile table = .ok file → file.id = table
  getPage : ∀ {w}, Good w → ∀ page, Good (c.getPage page w).2
  release : ∀ {w}, Good w → ∀ h, Good (c.release h w)
  content_eq : ∀ {w page h content}, Good w → (c.getPage page w).1 = .ok h →
    c.loadPage page = .ok content → h.content = content

/-- A page cache in some state, and the errors with which it has refused requests so far. -/
structure Session (W : Type) where
  cache : PageCache W
  state : W
  refused : List Error

instance : Storage (Session W) where
  heapFile table x := x.cache.catalog.heapFile table
  pageCount file x := file.pageCount x.cache.disk
  request page _ x :=
    match x.cache.getPage page x.state with
    | (.error e, state) => (.error e, { x with state := state, refused := x.refused ++ [e] })
    | (.ok h, state) => (.ok h, { x with state := state })
  release h x := { x with state := x.cache.release h x.state }

namespace Session

@[inherit_doc PageCache.calm]
def calm (x : Session W) : Session W := { x with cache := x.cache.calm }

/-- A state of a certain cache that is in order. -/
structure Of (c : PageCache W) (Good : W → Prop) (x : Session W) : Prop where
  cache_eq : x.cache = c
  good : Good x.state

lemma request_of_error {x : Session W} {page : PageId} {e : Error} {state : W}
    (h : x.cache.getPage page x.state = (.error e, state)) :
    Storage.request page .readOnly x =
      (.error e, { x with state := state, refused := x.refused ++ [e] }) := by
  simp only [Storage.request, h]

lemma request_of_ok {x : Session W} {page : PageId} {hd : Handle Page} {state : W}
    (h : x.cache.getPage page x.state = (.ok hd, state)) :
    Storage.request page .readOnly x = (.ok hd, { x with state := state }) := by
  simp only [Storage.request, h]

/-- Since a state `x`, no request was refused, and the calm cache is in the same state.  It breaks
with the first request that is refused. -/
def lockstep (x : Session W) : Lockstep (Session W) (Session W) where
  Rel y z := z = y.calm ∧ y.refused = x.refused ∧ y.cache = x.cache
  Broken e y := y.refused = x.refused ++ [e]
  heapFile_eq := by
    rintro y _ ⟨rfl, -⟩ table
    rfl
  pageCount_eq := by
    rintro y _ ⟨rfl, -⟩ file
    rfl
  request := by
    rintro y _ ⟨rfl, hnone, hcache⟩ page
    rcases hget : y.cache.getPage page y.state with ⟨e | h, state⟩
    · exact .inr ⟨e, _, request_of_error hget, congrArg (· ++ [e]) hnone⟩
    · have hcalm : y.calm.cache.getPage page y.calm.state = (.ok h, state) := by
        simp only [calm, PageCache.calm, hget]
      exact .inl ⟨_, _, _, request_of_ok hget, request_of_ok hcalm, rfl, hnone, hcache⟩
  release := by
    rintro y _ ⟨rfl, hnone, hcache⟩ h
    exact ⟨rfl, hnone, hcache⟩
  broken_release he _ := he

lemma rel_calm (x : Session W) : x.lockstep.Rel x x.calm := ⟨rfl, rfl, rfl⟩

end Session

namespace Faithful

variable {c : PageCache W} {Good : W → Prop}

/-- A faithful cache serves the tables, with any number of handles out. -/
def service (hc : c.Faithful Good) (limit : ℕ) (Refuses : Error → Prop)
    (hrefuses : ∀ {w page content e}, c.loadPage page = .ok content →
      (c.getPage page w).1 = .error e → Refuses e) : Service (Session W) where
  catalog := c.catalog
  disk := c.disk
  limit := limit
  Refuses := Refuses
  Good _ x := x.Of c Good
  id_eq := hc.id_eq
  heapFile_eq hx table := congrArg (fun c : PageCache W => c.catalog.heapFile table) hx.cache_eq
  pageCount_eq hx file _ := congrArg (fun c : PageCache W => file.pageCount c.disk) hx.cache_eq
  request := by
    rintro H x ⟨rfl, hx⟩ - file page content hfile hread
    have hload : x.cache.loadPage page = .ok content := by
      rw [loadPage, hfile]
      exact hread
    have hgood := hc.getPage hx page
    rcases hget : x.cache.getPage page x.state with ⟨e | h, state⟩ <;> rw [hget] at hgood
    · exact .inl ⟨e, _, Session.request_of_error hget, hrefuses hload (congrArg Prod.fst hget), rfl,
        hgood⟩
    · exact .inr ⟨h, _, Session.request_of_ok hget,
        hc.content_eq hx (congrArg Prod.fst hget) hload, rfl, hgood⟩
  release hx := ⟨hx.cache_eq, by
    obtain ⟨rfl, hx⟩ := hx
    exact hc.release hx _⟩

lemma calm (hc : c.Faithful Good) : c.calm.Faithful Good where
  id_eq := hc.id_eq
  getPage {w} hw page := by
    have hgood := hc.getPage hw page
    rcases hget : c.getPage page w with ⟨e | h, state⟩ <;> rw [hget] at hgood <;>
      simp only [PageCache.calm, hget] <;> exact hgood
  release := hc.release
  content_eq {w page h content} hw hanswer hload := by
    rcases hget : c.getPage page w with ⟨e | h, state⟩ <;>
      simp only [PageCache.calm, hget] at hanswer
    · rw [show c.loadPage page = _ from hload] at hanswer
      cases hanswer
      rfl
    · exact hc.content_eq hw ((congrArg Prod.fst hget).trans hanswer) hload

/-- The service of a faithful cache, which may refuse any request. -/
def refusing (hc : c.Faithful Good) (limit : ℕ) : Service (Session W) :=
  hc.service limit (fun _ => True) fun _ _ => trivial

/-- The service of a faithful cache that is calm. -/
def serving (hc : c.Faithful Good) (limit : ℕ) : Service (Session W) :=
  hc.calm.service limit (fun _ => False) fun {w page content e} hload hanswer => by
    rcases hget : c.getPage page w with ⟨e | h, state⟩ <;>
      simp only [PageCache.calm, hget] at hanswer
    · rw [show c.loadPage page = _ from hload] at hanswer
      cases hanswer
    · cases hanswer

/-! ## Single calls -/

section

variable (hc : c.Faithful Good) {F : Footprint σ}

/-- A call either meets no refused request and does what it does with the calm cache, or answers
with the error of the one request that was refused. -/
lemma runs_or_refused {α : Type} {call : Call (Session W) σ α} {s : σ} {P : σ → Prop}
    {Q : Except Failure α → σ → Prop}
    (hruns : ∀ v, (hc.refusing F.need).Kin v → v.Runs F call s fun answer s' =>
      v.Refusal answer ∧ P s' ∨ Q answer s')
    (hkeeps : ∀ x : Session W, x.lockstep.Keeps call call) {x : Session W} (hx : x.Of c Good) :
    ∃ answer s' x', call s x = (answer, s', x') ∧ x'.Of c Good ∧
      (x'.refused = x.refused ∧ Q answer s' ∨
        ∃ e, x'.refused = x.refused ++ [e] ∧ answer = .error (.error e) ∧
          (P s' ∨ Q answer s')) := by
  obtain ⟨answer, s', x', heq, hpost, hx'⟩ :=
    hruns (hc.refusing F.need) ⟨rfl, rfl⟩ 0 x (Nat.le_refl F.need) hx
  refine ⟨answer, s', x', heq, hx', ?_⟩
  obtain ⟨answer₁, s₁, y₁, z₁, hy, hz, -, hnone, -⟩ | ⟨e, s₁, y₁, hy, he⟩ :=
    hkeeps x s x x.calm x.rel_calm
  · cases heq.symm.trans hy
    have hcalm : x.calm.Of c.calm Good := ⟨congrArg PageCache.calm hx.cache_eq, hx.good⟩
    obtain ⟨answer₂, s₂, z₂, hz', hpost', -⟩ :=
      hruns (hc.serving F.need) ⟨rfl, rfl⟩ 0 x.calm (Nat.le_refl F.need) hcalm
    cases hz.symm.trans hz'
    obtain ⟨⟨e, he, -⟩, -⟩ | hq := hpost'
    · exact absurd he not_false
    · exact .inl ⟨hnone, hq⟩
  · cases heq.symm.trans hy
    exact .inr ⟨e, he, rfl, hpost.imp_left And.right⟩

variable {cursor : Cursor (Session W) σ} {all : List Answer} {At : List Answer → σ → Prop}
  (hplays : ∀ v, (hc.refusing F.need).Kin v → v.Plays F cursor all At)
  (hkeeps : ∀ x : Session W, x.lockstep.Cursors cursor cursor)

include hplays hkeeps

/-- Asking for a row when some rows are left. -/
lemma hasNext {left : List Row} {s : σ} (hs : At (Answers.ofRows left) s) {x : Session W}
    (hx : x.Of c Good) :
    ∃ answer s' x', cursor.hasNext s x = (answer, s', x') ∧ x'.Of c Good ∧
      At (Answers.ofRows left) s' ∧
      (x'.refused = x.refused ∧ answer = .ok (!left.isEmpty) ∧
          (∀ row rest, left = row :: rest → ∀ y, ∃ s'', cursor.next s' y = (.ok row, s'', y)) ∨
        ∃ e, x'.refused = x.refused ++ [e] ∧ answer = .error (.error e)) := by
  have hask : Answers.ask (Answers.ofRows left) = (.ok (!left.isEmpty), Answers.ofRows left) := by
    cases left <;> rfl
  obtain ⟨answer, s', x', heq, hx', hpost⟩ := hc.runs_or_refused
    (fun v hv => (hplays v hv).hasNext hs) (fun x => (hkeeps x).hasNext) hx
  rw [hask] at hpost
  refine ⟨answer, s', x', heq, hx', ?_⟩
  obtain ⟨hnone, rfl, hs', hready⟩ | ⟨e, he, rfl, hs' | ⟨-, hs', -⟩⟩ := hpost
  · refine ⟨hs', .inl ⟨hnone, rfl, ?_⟩⟩
    rintro row rest rfl y
    obtain ⟨s'', hnext, -⟩ := hready row (Answers.ofRows rest) rfl y
    exact ⟨s'', hnext⟩
  · exact ⟨hs', .inr ⟨e, he, rfl⟩⟩
  · exact ⟨hs', .inr ⟨e, he, rfl⟩⟩

/-- Taking a row when some rows are left. -/
lemma next {left : List Row} {s : σ} (hs : At (Answers.ofRows left) s) {x : Session W}
    (hx : x.Of c Good) :
    ∃ answer s' x', cursor.next s x = (answer, s', x') ∧ x'.Of c Good ∧
      (x'.refused = x.refused ∧ answer = (Answers.take (Answers.ofRows left)).1 ∧
          At (Answers.ofRows left.tail) s' ∨
        ∃ e, x'.refused = x.refused ++ [e] ∧ answer = .error (.error e) ∧
          At (Answers.ofRows left) s') := by
  have htake : (Answers.take (Answers.ofRows left)).2 = Answers.ofRows left.tail := by
    cases left <;> rfl
  obtain ⟨answer, s', x', heq, hx', hpost⟩ := hc.runs_or_refused
    (fun v hv => (hplays v hv).next hs) (fun x => (hkeeps x).next) hx
  rw [htake] at hpost
  refine ⟨answer, s', x', heq, hx', ?_⟩
  obtain ⟨hnone, hanswer, hs'⟩ | ⟨e, he, rfl, hs' | ⟨hanswer, hs'⟩⟩ := hpost
  · exact .inl ⟨hnone, hanswer, hs'⟩
  · exact .inr ⟨e, he, rfl, hs'⟩
  · -- The only failure that a list of rows answers with is that it is exhausted.
    rcases left with _ | ⟨row, rest⟩
    · exact .inr ⟨e, he, rfl, hs'⟩
    · cases hanswer

end

end Faithful

end PageCache

/-! ## Dialogues -/

/-- The row that a reply hands out. -/
def Cursor.Reply.row? : Cursor.Reply → Option Row
  | .next (.ok row) => some row
  | _ => none

/-- The rows that several replies hand out. -/
def Cursor.taken (told : List Cursor.Reply) : List Row := told.filterMap Cursor.Reply.row?

/-- After any calls, the rows that were taken and those that are left make up the whole. -/
lemma PageCache.Faithful.replies {c : PageCache W} {Good : W → Prop} (hc : c.Faithful Good)
    {F : Footprint σ} {cursor : Cursor (Session W) σ} {all : List Answer}
    {At : List Answer → σ → Prop}
    (hplays : ∀ v, (hc.refusing F.need).Kin v → v.Plays F cursor all At)
    (hkeeps : ∀ x : Session W, x.lockstep.Cursors cursor cursor) (asks : List Cursor.Ask)
    {rows : List Row} {s : σ} (hs : At (Answers.ofRows rows) s) {x : Session W}
    (hx : x.Of c Good) :
    ∃ told s' x' left, cursor.replies asks s x = (told, s', x') ∧
      rows = Cursor.taken told ++ left ∧ At (Answers.ofRows left) s' ∧ x'.Of c Good := by
  induction asks generalizing rows s x with
  | nil => exact ⟨[], s, x, rows, rfl, rfl, hs, hx⟩
  | cons ask rest ih =>
    cases ask with
    | hasNext =>
      obtain ⟨answer, s₁, x₁, hcall, hx₁, hs₁, -⟩ := hc.hasNext hplays hkeeps hs hx
      obtain ⟨told, s', x', left, hrest, hrows, hs', hx'⟩ := ih hs₁ hx₁
      refine ⟨.hasNext answer :: told, s', x', left, ?_, hrows, hs', hx'⟩
      simp only [Cursor.replies, hcall, hrest]
    | next =>
      obtain ⟨answer, s₁, x₁, hcall, hx₁, hpost⟩ := hc.next hplays hkeeps hs hx
      obtain ⟨-, hanswer, hs₁⟩ | ⟨e, -, rfl, hs₁⟩ := hpost
      · obtain ⟨told, s', x', left, hrest, hrows, hs', hx'⟩ := ih hs₁ hx₁
        refine ⟨.next answer :: told, s', x', left, ?_, ?_, hs', hx'⟩
        · simp only [Cursor.replies, hcall, hrest]
        · rcases rows with _ | ⟨row, rest⟩
          · subst hanswer
            exact hrows
          · subst hanswer
            exact congrArg (row :: ·) hrows
      · obtain ⟨told, s', x', left, hrest, hrows, hs', hx'⟩ := ih hs₁ hx₁
        refine ⟨.next (.error (.error e)) :: told, s', x', left, ?_, hrows, hs', hx'⟩
        simp only [Cursor.replies, hcall, hrest]

/-! ## Databases -/

namespace Database

variable {db : Database} {count : ℕ} {meanwhile : ℕ → List Event}

/-- The page cache of a database that others use too.  Its state counts the requests, since what
others do may be different before each of them. -/
def shared (db : Database) (meanwhile : ℕ → List Event) : PageCache (ℕ × Database) where
  catalog := db.catalog
  disk := db.disk
  getPage page w :=
    let (answer, now) := (w.2.run (meanwhile w.1)).getPage page
    (answer, w.1 + 1, now)
  release h w := (w.1, w.2.release h)

/-- All pages that can be read and are resident are what the files hold. -/
structure UpToDate (count : ℕ) (c : Catalog) (d : Disk) (db : Database) : Prop where
  disk_eq : db.disk = d
  sound : Sound count db
  mirrors : ∀ {page file content}, c.heapFile page.table = .ok file →
    d.content file.path = .ok content → Mirrors count file content page db

lemma UpToDate.of_ofFrames {config : Config} {c : Catalog} {d : Disk}
    (hid : ∀ {table file}, c.heapFile table = .ok file → file.id = table) :
    UpToDate count c d ⟨config, d, c, .ofFrames count⟩ := by
  have hsound : Sound count ⟨config, d, c, .ofFrames count⟩ := ⟨.ofFrames count, hid⟩
  refine ⟨rfl, hsound, fun {page file content} hfile hcontent => ?_⟩
  have hholds : Holds file content ⟨config, d, c, .ofFrames count⟩ :=
    ⟨(hid hfile).symm ▸ hfile, hcontent⟩
  exact ⟨hholds, hsound, (hid hfile).symm, fun h => by cases h⟩

/-- **A database is a faithful cache**, as long as others only read, whatever that does to its
pool. -/
lemma faithful_shared (hid : ∀ {table file}, db.catalog.heapFile table = .ok file → file.id = table)
    (hmeanwhile : ∀ n, ∀ e ∈ meanwhile n, e.Reads) :
    (db.shared meanwhile).Faithful fun w => UpToDate count db.catalog db.disk w.2 where
  id_eq := hid
  getPage {w} hw page := by
    have hreads := hmeanwhile w.1
    refine ⟨(hw.sound.run_of_reads hreads).2.trans hw.disk_eq,
      (hw.sound.run _).act (.getPage page), fun hfile hcontent => ?_⟩
    exact ((hw.mirrors hfile hcontent).run_of_reads hreads).getPage page
  release {w} hw h := ⟨hw.disk_eq, hw.sound.act (.release h), fun hfile hcontent =>
    (hw.mirrors hfile hcontent).release h⟩
  content_eq {w page h content} hw hanswer hload := by
    replace hanswer : ((w.2.run (meanwhile w.1)).getPage page).1 = .ok h := hanswer
    replace hload : db.loadPage page = .ok content := hload
    obtain ⟨file, hfile, hread⟩ := exists_readPage_of_loadPage hload
    obtain ⟨bytes, data, hcontent, -⟩ := HeapFile.exists_content_of_readPage hread
    have hdisk := (hw.sound.run_of_reads (hmeanwhile w.1)).2.trans hw.disk_eq
    obtain ⟨answer, db', heq, -, hpost⟩ :=
      ((hw.mirrors hfile hcontent).run_of_reads (hmeanwhile w.1)).request (hdisk ▸ hread)
    rw [heq] at hanswer
    obtain ⟨e, rfl, -⟩ | ⟨h', rfl, hsame⟩ := hpost
    · cases hanswer
    · cases hanswer
      exact hsame

/-- A database with one frame only, and the file of two pages as a table. -/
def numbersNarrow : Database :=
  ⟨⟨8, 1⟩, numbersDisk, Catalog.empty.add numbersOnDisk "a", .ofFrames 1⟩

/-- Another caller requests the second page before the first request, and clears the pool before
later ones. -/
def crowd (n : ℕ) : List Event := if n = 0 then [.getPage ⟨numbersOnDisk.id, 1⟩] else [.clearCache]

/-- The database among these others. -/
def crowded : PageCache.Session (ℕ × Database) :=
  ⟨numbersNarrow.shared crowd, (0, numbersNarrow), []⟩

end Database

namespace Plan

variable {c : PageCache W} {Good : W → Prop} {p : Plan} {orders : p.Orders (PageCache.Session W)}

/-- **Refused requests lose and duplicate nothing.**  A plan without groups is opened whose
predicates never fail, on a faithful page cache that refuses any requests it likes.  If the cache
refused none, draining the plan would give certain rows.  After any calls, the rows that were taken
are the first of these, and each further call does one of two things.

* No request is refused during it.  Then `hasNext` says whether rows are left, and after a positive
  answer `next` hands the first of them out without making a request, whatever has become of the
  cache; and `next` hands the first of them out, or says that there is none.
* One request is refused during it.  Then the call answers with the error of that request. -/
theorem resume (hc : c.Faithful Good) {rows : List Row} (hungrouped : p.Ungrouped)
    (havailable : p.Available c.catalog c.disk)
    (hrows : p.Evaluates c.catalog c.disk (.ok (Answers.ofRows rows))) {w : W} (hw : Good w)
    {s₀ s₁ : p.State} {x₁ : PageCache.Session W}
    (hstart : (p.cursor orders).start s₀ ⟨c, w, []⟩ = (.ok (), s₁, x₁)) :
    (∃ s₂ x₂, p.drain orders s₁ x₁.calm = (.ok rows, s₂, x₂)) ∧
    ∀ asks told s x, (p.cursor orders).replies asks s₁ x₁ = (told, s, x) →
      ∃ left, rows = Cursor.taken told ++ left ∧
        (∀ answer s' x', (p.cursor orders).hasNext s x = (answer, s', x') →
          x'.refused = x.refused ∧ answer = .ok (!left.isEmpty) ∧
              (∀ row rest, left = row :: rest →
                ∀ y, ∃ s'', (p.cursor orders).next s' y = (.ok row, s'', y)) ∨
            ∃ e, x'.refused = x.refused ++ [e] ∧ answer = .error (.error e)) ∧
        ∀ answer s' x', (p.cursor orders).next s x = (answer, s', x') →
          x'.refused = x.refused ∧ answer = (Answers.take (Answers.ofRows left)).1 ∨
            ∃ e, x'.refused = x.refused ++ [e] ∧ answer = .error (.error e) := by
  have hkeeps : ∀ x : PageCache.Session W, x.lockstep.Cursors (p.cursor orders) (p.cursor orders) :=
    fun x => p.cursors_inStep x.lockstep orders orders
  have hneed := Nat.le_refl p.footprint.need
  obtain ⟨answer, s, x, hstart', hpost, hx₁⟩ :=
    p.opensAlike (hc.refusing p.footprint.need) orders havailable s₀ 0 ⟨c, w, []⟩ hneed ⟨rfl, hw⟩
  cases hstart.symm.trans hstart'
  obtain _ | _ | ⟨hpossible, At, hplays, hs⟩ := hpost
  cases Except.ok.inj (hrows.eq_of_ungrouped hungrouped hpossible)
  constructor
  · have hcalm : x₁.calm.Of c.calm Good := ⟨congrArg PageCache.calm hx₁.cache_eq, hx₁.good⟩
    obtain ⟨answer, s₂, x₂, hdrain, ⟨e, he, -⟩ | rfl, -⟩ :=
      (hplays (hc.serving p.footprint.need) ⟨rfl, rfl⟩).drain (p.finite_cursor orders) hs 0 x₁.calm
        hneed hcalm
    · exact absurd he not_false
    · rw [Answers.drain_ofRows] at hdrain
      exact ⟨s₂, x₂, hdrain⟩
  intro asks told s x hasks
  obtain ⟨told', s', x', left, hasks', hleft, hs, hx⟩ := hc.replies hplays hkeeps asks hs hx₁
  cases hasks.symm.trans hasks'
  refine ⟨left, hleft, fun answer s' x' hcall => ?_, fun answer s' x' hcall => ?_⟩
  · obtain ⟨answer', s'', x'', hcall', -, -, hpost⟩ := hc.hasNext hplays hkeeps hs hx
    cases hcall.symm.trans hcall'
    exact hpost
  · obtain ⟨answer', s'', x'', hcall', -, hpost⟩ := hc.next hplays hkeeps hs hx
    cases hcall.symm.trans hcall'
    obtain ⟨hnone, hanswer, -⟩ | ⟨e, he, hanswer, -⟩ := hpost
    · exact .inl ⟨hnone, hanswer⟩
    · exact .inr ⟨e, he, hanswer⟩

/-- The scan of the file of two pages. -/
def numbersScan : Plan := scan Database.numbersTable

/-- The caller is told that the pool is full, asks again, and gets the first row. -/
theorem resume_crowded : ∃ s₁ x₁ s₂ x₂ s₃ x₃ s₄,
    (numbersScan.cursor .plain).start none Database.crowded = (.ok (), s₁, x₁) ∧
      (numbersScan.cursor .plain).hasNext s₁ x₁ = (.error (.error .poolFull), s₂, x₂) ∧
      (numbersScan.cursor .plain).hasNext s₂ x₂ = (.ok true, s₃, x₃) ∧
      (numbersScan.cursor .plain).next s₃ x₃ = (.ok (Database.numbersRow 7 0 0), s₄, x₃) := by
  let c : Cursor (PageCache.Session (ℕ × Database)) numbersScan.State := numbersScan.cursor .plain
  let s₁ : numbersScan.State := some ⟨Database.numbersOnDisk, some (.ofPages 2)⟩
  have hstart : c.start none Database.crowded = (.ok (), s₁, Database.crowded) := rfl
  have hrefused : (c.hasNext s₁ Database.crowded).1 = .error (.error .poolFull) := by cbv
  have hserved : (c.hasNext (c.hasNext s₁ Database.crowded).2.1
      (c.hasNext s₁ Database.crowded).2.2).2.2.refused =
        (c.hasNext s₁ Database.crowded).2.2.refused := by cbv
  rcases hfirst : c.hasNext s₁ Database.crowded with ⟨answer, s₂, x₂⟩
  rw [hfirst] at hrefused hserved
  obtain rfl : answer = _ := hrefused
  rcases hsecond : c.hasNext s₂ x₂ with ⟨answer, s₃, x₃⟩
  rw [hsecond] at hserved
  have hid : ∀ {table file}, Database.numbersNarrow.catalog.heapFile table = .ok file →
      file.id = table := Catalog.id_of_heapFile_add_empty
  have hreads : ∀ n, ∀ e ∈ Database.crowd n, e.Reads := by
    intro n e he
    rw [Database.crowd] at he
    split at he <;> obtain rfl := List.mem_singleton.1 he <;> trivial
  have hcontents : Database.numbersOnDisk.contents Database.numbersNarrow.disk =
      .ok [Database.numbersRow 7 0 0, Database.numbersRow 9 0 1, Database.numbersRow 11 1 0] := rfl
  have hungrouped : numbersScan.Ungrouped := trivial
  have havailable :
      numbersScan.Available Database.numbersNarrow.catalog Database.numbersNarrow.disk :=
    ⟨Database.numbersOnDisk, _, rfl, rfl, hcontents⟩
  have hasks : c.replies [.hasNext] s₁ Database.crowded =
      ([.hasNext (.error (.error .poolFull))], s₂, x₂) := by
    simp only [Cursor.replies, hfirst]
  obtain ⟨left, hleft, hagain, -⟩ := (resume (Database.faithful_shared hid hreads) hungrouped
    havailable (.scan rfl hcontents) (.of_ofFrames hid) hstart).2 _ _ _ _ hasks
  obtain rfl : _ = left := hleft
  obtain ⟨-, rfl, hready⟩ | ⟨e, he, -⟩ := hagain _ _ _ hsecond
  · obtain ⟨s₄, hnext⟩ := hready _ _ rfl x₃
    exact ⟨s₁, Database.crowded, s₂, x₂, s₃, x₃, s₄, hstart, hfirst, hsecond, hnext⟩
  · rw [hserved] at he
    simp at he

end Plan

end RowStore
