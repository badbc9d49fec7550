import RowStore.Proofs.Database.Company
import RowStore.Proofs.Database.Reading

/-!
# Plans in company

The cursor of a plan is opened, asked for rows, rewound and closed in any order, also after calls
that failed, while others use the same database between the calls and before the requests that are
made in them (`Plan.LeadsTo`).

Two results hold of all states to which this can lead.  They come from one regime
(`Company.regime`), under which all handles that are out are the plan's or kept by others.

* A start that fails leaves nothing behind (`Plan.start_error_close_released`).  Operators only
  close what is below them if they take themselves for open, so this needs what is known of closed
  operators (`Plan.Shut`).
* A plan pins no more frames than it has table scans (`Plan.frame_per_scan`), and if it can have
  that many it never fails for want of one.  Scans give a page back before they request the next, so
  even within a call there is one frame less in use than the plan may have when a request is made.
-/

namespace RowStore

/-- A request to a world with a watch is one to the world after the others had their turn. -/
lemma Watched.request_eq {W : Type} [Storage W] {x : Watched W} {page : PageId} {access : Access}
    {answer : Except Error (Handle Page)} {w : W}
    (h : Storage.request page access (x.meanwhile x.requests.length x.world) = (answer, w)) :
    Storage.request page access x = (answer, ⟨w, x.meanwhile,
      x.requests ++ [(page, x.meanwhile x.requests.length x.world)]⟩) :=
  congrArg (fun made : Except Error (Handle Page) × W => (made.1, (⟨made.2, x.meanwhile,
    x.requests ++ [(page, x.meanwhile x.requests.length x.world)]⟩ : Watched W))) h

/-! ## The regime of a company -/

namespace Company

variable {count limit k : ℕ} {H : Multiset (Handle Page)} {meanwhile : ℕ → List Deed}
  {x : Watched Company}

/-- After everything that others did before a request, they pinned at most so many frames. -/
def Calm (k : ℕ) (meanwhile : ℕ → List Deed) (x : Watched Company) : Prop :=
  ∀ i page y, x.requests[i]? = some (page, y) → meanwhile i ≠ [] → y.pins ≤ k

/-- All handles are accounted for, and others pin at most so many frames while they are calm. -/
structure InOrder (count k : ℕ) (meanwhile : ℕ → List Deed) (H : Multiset (Handle Page))
    (x : Watched Company) : Prop where
  accounts : x.world.Accounts count H
  meanwhile_eq : x.meanwhile = fun n y => y.run (meanwhile n)
  pins_le : Calm k meanwhile x → x.world.pins ≤ k

lemma inOrder_during {y : Company} (hy : y.Accounts count H) (hpins : y.pins ≤ k)
    (meanwhile : ℕ → List Deed) : InOrder count k meanwhile H (y.during meanwhile) :=
  ⟨hy, rfl, fun _ => hpins⟩

namespace InOrder

/-- A request is made after others had their turn. -/
lemma request (hx : InOrder count k meanwhile H x) (page : PageId) :
    (∃ e x', Storage.request page .readOnly x = (.error e, x') ∧
        (e = .poolFull → Calm k meanwhile x' → count ≤ H.card + k) ∧
        InOrder count k meanwhile H x') ∨
      ∃ h x', Storage.request page .readOnly x = (.ok h, x') ∧
        InOrder count k meanwhile (h ::ₘ H) x' := by
  obtain ⟨world, _, requests⟩ := x
  obtain ⟨haccounts, rfl, hcalm⟩ := hx
  let before := world.run (meanwhile requests.length)
  have hpins : ∀ world', Calm k meanwhile
      ⟨world', fun n y => y.run (meanwhile n), requests ++ [(page, before)]⟩ → before.pins ≤ k := by
    intro world' hcalm'
    by_cases hnil : meanwhile requests.length = []
    · have hsame : before = world := congrArg world.run hnil
      rw [hsame]
      refine hcalm fun i page' y hi => hcalm' i page' y ?_
      exact List.getElem?_append_left (List.getElem?_eq_some_iff.1 hi).1 ▸ hi
    · exact hcalm' _ page before List.getElem?_concat_length hnil
  have hbefore : before.Accounts count H := haccounts.run _
  obtain ⟨e, y, hrequest, hy, hle, hfull⟩ | ⟨h, y, hrequest, hy, hle⟩ := hbefore.request page
  · refine .inl ⟨e, _, Watched.request_eq hrequest, fun he hcalm' => ?_, hy, rfl,
      fun hcalm' => hle.trans (hpins y hcalm')⟩
    exact (hfull he).trans (Nat.add_le_add_left (hpins y hcalm') _)
  · exact .inr ⟨h, _, Watched.request_eq hrequest, hy, rfl,
      fun hcalm' => hle.trans (hpins y hcalm')⟩

lemma release {h : Handle Page} (hx : InOrder count k meanwhile (h ::ₘ H) x) :
    InOrder count k meanwhile H (Storage.release h x) :=
  ⟨hx.accounts.release.1, hx.meanwhile_eq,
    fun hcalm => hx.accounts.release.2.trans_le (hx.pins_le hcalm)⟩

end InOrder

/-- In a company all handles stay accounted for, and a call only fails for want of a frame if others
are not calm or the pool is too small. -/
def regime (count limit k : ℕ) (meanwhile : ℕ → List Deed) : Regime (Watched Company) where
  limit := limit
  Good := InOrder count k meanwhile
  Fault e x := e = .error .poolFull → Calm k meanwhile x → count < k + limit
  Conforms _ _ := True
  Scans _ := True
  File _ _ := True
  fault_notOpen _ _ h := by cases h
  fault_exhausted _ h := by cases h
  fault_release _ h := h
  file _ _ _ _ _ := trivial
  heapFile {_ x} _ {_ _} _ h := by
    rintro ⟨⟩
    exact (Catalog.isOfStorage_of_heapFile (c := x.world.db.catalog) h).elim
  shape _ _ _ _ _ _ h := by cases h
  pageCount {_ x} _ {_ _} h := by
    rintro ⟨⟩
    exact (HeapFile.isOfStorage_of_pageCount (d := x.world.db.disk) h).elim
  request {H x} hx hlt page := by
    obtain ⟨e, x', hrequest, hfault, hx'⟩ | ⟨h, x', hrequest, hx'⟩ := hx.request page
    · refine .inl ⟨e, x', hrequest, fun he hcalm => ?_, hx'⟩
      cases he
      have hcount := hfault rfl hcalm
      omega
    · exact .inr ⟨h, x', hrequest, hx', fun _ _ _ _ _ _ _ => trivial⟩
  release hx := hx.release

lemma indifferent_regime (count limit k : ℕ) (meanwhile : ℕ → List Deed) :
    (regime count limit k meanwhile).Indifferent where
  conforms _ _ := trivial
  scans _ := trivial
  fault := by
    rintro _ he x rfl
    exact he.elim

end Company

/-! ## Lives of plans -/

namespace Cursor

variable {W σ : Type}

/-- The failure with which a call answers, if it does. -/
def failure? (c : Cursor W σ) (act : Cursor.Act) (s : σ) (w : W) : Option Failure :=
  match act with
  | .start => failureOf (c.start s w).1
  | .hasNext => failureOf (c.hasNext s w).1
  | .next => failureOf (c.next s w).1
  | .rewind => failureOf (c.rewind s w).1
  | .close => none
where
  /-- The failure that an answer is. -/
  failureOf {α : Type} : Except Failure α → Option Failure
    | .error e => some e
    | .ok _ => none

end Cursor

namespace Regime.Governs

variable {W σ : Type} [Storage W] {G : Regime W} {F : Footprint σ} {A Z : σ → Prop}
  {T : Row → Prop} {c : Cursor W σ}

/-- Any call keeps the state and the world in order, and fails as calls may. -/
lemma act (hc : G.Governs F A Z T c) (act : Cursor.Act) {s : σ} {R : Multiset (Handle Page)} {w : W}
    (hR : F.need + R.card ≤ G.limit) (hs : A s) (hw : G.Good (F.held s + R) w) :
    A (c.act act s w).1 ∧ G.Good (F.held (c.act act s w).1 + R) (c.act act s w).2 ∧
      ∀ e, c.failure? act s w = some e → G.Fault e (c.act act s w).2 := by
  have hkept : ∀ {α : Type} {T : α → Prop} {call : Call W σ α}, G.Keeps F A T call →
      A (call s w).2.1 ∧ G.Good (F.held (call s w).2.1 + R) (call s w).2.2 ∧
        ∀ e, Cursor.failure?.failureOf (call s w).1 = some e → G.Fault e (call s w).2.2 := by
    intro α T call hcall
    obtain ⟨answer, s', w', heq, hs', hw', hallows⟩ := hcall hR hs hw
    rw [heq]
    refine ⟨hs', hw', fun e he => ?_⟩
    rcases answer with e' | a <;> cases he
    exact hallows
  cases act with
  | start => exact hkept hc.start
  | hasNext => exact hkept hc.hasNext
  | next => exact hkept hc.next
  | rewind => exact hkept hc.rewind
  | close =>
    obtain ⟨s', w', heq, hshut, hw', -⟩ := hc.close hs hw
    rw [Cursor.act, heq]
    exact ⟨hc.of_shut hshut, hw', fun e he => by cases he⟩

end Regime.Governs

namespace Plan

/-- From one state of the cursor of a plan and one company it can come to others, by calls on the
cursor, with deeds of a certain kind before the requests that are made in them, and by such deeds
between the calls.  In every call the aggregations can list their groups in other orders. -/
inductive LeadsTo (Kind : Deed → Prop) (p : Plan) (s₀ : p.State) (y₀ : Company) :
    p.State → Company → Prop
  | refl : LeadsTo Kind p s₀ y₀ s₀ y₀
  | deed {s : p.State} {y : Company} (h : LeadsTo Kind p s₀ y₀ s y) {d : Deed} (hd : Kind d) :
    LeadsTo Kind p s₀ y₀ s (y.act d)
  | call {s : p.State} {y : Company} (h : LeadsTo Kind p s₀ y₀ s y)
    (orders : p.Orders (Watched Company)) (act : Cursor.Act) (meanwhile : ℕ → List Deed)
    (hmeanwhile : ∀ n, ∀ d ∈ meanwhile n, Kind d) :
    LeadsTo Kind p s₀ y₀ ((p.cursor orders).act act s (y.during meanwhile)).1
      ((p.cursor orders).act act s (y.during meanwhile)).2.world

/-- Whatever is done to a new cursor and in its company, the cursor is in order, and all handles
that are out are its own or kept by others. -/
structure Orderly (count : ℕ) (p : Plan) (s : p.State) (y : Company) : Prop where
  accounts : y.Accounts count (p.handles s)
  tidy : p.Tidy (Regime.free (Watched Company) p.scans) s

namespace Orderly

variable {Kind : Deed → Prop} {p : Plan} {s : p.State} {y : Company} {count k : ℕ}
  {config : Config} {disk : Disk}

lemma initial (p : Plan) (hy : y.Accounts count 0) : p.Orderly count p.initial y where
  accounts := p.handles_initial.symm ▸ hy
  tidy := (governed .plain ((Regime.indifferent_free p.scans).suits p)).of_shut p.shut_initial

/-- A call keeps order, and a call that fails for want of a frame had no calm company, or too small
a pool. -/
lemma call (h : p.Orderly count s y) (orders : p.Orders (Watched Company)) (act : Cursor.Act)
    (meanwhile : ℕ → List Deed) (hk : y.pins ≤ k) :
    p.Orderly count ((p.cursor orders).act act s (y.during meanwhile)).1
        ((p.cursor orders).act act s (y.during meanwhile)).2.world ∧
      ((p.cursor orders).failure? act s (y.during meanwhile) = some (.error .poolFull) →
        Company.Calm k meanwhile ((p.cursor orders).act act s (y.during meanwhile)).2 →
          count < k + p.scans) := by
  let G := Company.regime count p.scans k meanwhile
  have hroom : p.footprint.need + (0 : Multiset (Handle Page)).card ≤ G.limit := by
    rw [need_footprint]
    exact Nat.le_refl _
  have hgood : G.Good (p.footprint.held s + 0) (y.during meanwhile) := by
    rw [held_footprint, Multiset.add_zero]
    exact Company.inOrder_during h.accounts hk meanwhile
  obtain ⟨htidy, hgood', hfault⟩ :=
    (governed orders ((Company.indifferent_regime count p.scans k meanwhile).suits p)).act act
      hroom (h.tidy.mono (fun _ => trivial) fun _ => trivial) hgood
  rw [held_footprint, Multiset.add_zero] at hgood'
  exact ⟨⟨hgood'.accounts, htidy.mono (fun _ => trivial) fun _ => trivial⟩,
    fun hfull => hfault _ hfull rfl⟩

lemma leadsTo (h : LeadsTo Kind p p.initial (Company.onDisk config disk) s y) :
    p.Orderly config.poolPages s y := by
  induction h with
  | refl => exact initial p (Company.accounts_onDisk config disk)
  | deed _ _ ih => exact ⟨ih.accounts.act _, ih.tidy⟩
  | call _ orders act meanwhile _ ih =>
    exact (ih.call orders act meanwhile ih.accounts.pins_le_count).1

end Orderly

/-! ## Nothing is left open -/

/-- Every operator of a plan is closed, the plan holds no handle, so that all that are out are kept
by others, and it opens as if it had never been opened. -/
structure Released (p : Plan) (s : p.State) (y : Company) : Prop where
  closed : ∀ o ∈ p.operators s, ∀ orders : o.1.Orders (Watched Company),
    (o.1.cursor orders).IsClosed o.2
  handles_eq : p.handles s = []
  out_eq : (y.db.pool.out : Multiset ℕ) = y.tickets
  startsAlike : ∀ orders : p.Orders (Watched Company), (p.cursor orders).StartsAlike s p.initial

lemma Shut.released {p : Plan} {s : p.State} {y : Company} {count : ℕ} (hs : p.Shut s)
    (h : p.Orderly count s y) : p.Released s y where
  closed _ ho _ := (hs.of_mem_operators ho).isClosed
  handles_eq := hs.handles_eq
  out_eq := by
    rw [h.accounts.out_eq, hs.handles_eq]
    exact Multiset.zero_add _
  startsAlike orders := (p.resets orders).startsAlike hs p.shut_initial

section

variable {Kind : Deed → Prop} {p : Plan} {s : p.State} {y : Company} {config : Config} {disk : Disk}

/-- **A start that fails releases a whole plan, and so does closing it.**  The plan is no mere table
scan.  Its cursor starts out new, with a database on any disk, and comes to some state by any calls
and anything that others do between the calls and before the requests in them.  If it is then opened
and that fails, or if it is closed, all operators in it are closed, nothing is held for it, and it
opens again as it would have at first. -/
theorem start_error_close_released (hp : ∀ t, p ≠ scan t)
    (h : LeadsTo Kind p p.initial (Company.onDisk config disk) s y)
    (orders : p.Orders (Watched Company)) (meanwhile : ℕ → List Deed) :
    (∀ e s' x, (p.cursor orders).start s (y.during meanwhile) = (.error e, s', x) →
        p.Released s' x.world) ∧
      ∀ s' x, (p.cursor orders).close s (y.during meanwhile) = (s', x) →
        p.Released s' x.world := by
  have horderly := Orderly.leadsTo h
  have hcall := fun act => (horderly.call orders act meanwhile horderly.accounts.pins_le_count).1
  constructor
  · intro e s' x hstart
    have hs' := hcall .start
    rw [Cursor.act, hstart] at hs'
    exact (hs'.tidy.shut_of_start_error hp hstart).released hs'
  · intro s' x hclose
    have hs' := hcall .close
    rw [Cursor.act, hclose] at hs'
    obtain ⟨s'', x', heq, hshut, -⟩ :=
      (governed orders ((Regime.indifferent_free p.scans).suits p)).close (R := 0) horderly.tidy
        trivial
    cases hclose.symm.trans heq
    exact hshut.released hs'

end

/-- The filter that finds 7 in the table on disk. -/
def sevens : Plan := filter ⟨0, .eq, .int 7⟩ (scan Database.numbersTable)

/-- The filter when it was opened. -/
def sevensOpened : sevens.State := ⟨some ⟨Database.numbersOnDisk, some (.ofPages 2)⟩, none, true⟩

/-- The database in which the table was opened. -/
def sevensCompany : Company := ⟨Database.numbersOpened, []⟩

lemma leadsTo_sevensOpened :
    LeadsTo (fun _ => True) sevens sevens.initial (Company.onDisk ⟨8, 2⟩ Database.numbersDisk)
      sevensOpened sevensCompany := by
  have hopen : (Company.onDisk ⟨8, 2⟩ Database.numbersDisk).act
      (.manage (.openTable "a" numbers "a") trivial) = sevensCompany :=
    congrArg (fun db => (⟨db, []⟩ : Company)) Database.run_openTable_numbers
  have hopened : LeadsTo (fun _ => True) sevens sevens.initial
      (Company.onDisk ⟨8, 2⟩ Database.numbersDisk) sevens.initial sevensCompany :=
    hopen ▸ .deed .refl trivial
  exact hopened.call .plain .start (fun _ => []) fun _ _ _ => trivial

/-- The filter finds a row on the first page, and holds the page then. -/
lemma hasNext_sevensOpened :
    ∃ (scan₁ : Option FileScan) (x : Watched Company),
      (sevens.cursor .plain).hasNext sevensOpened (sevensCompany.during fun _ => []) =
          (.ok true, ⟨scan₁, some (Database.numbersRow 7 0 0), true⟩, x) ∧
        (handles (scan Database.numbersTable) scan₁).length = 1 := by
  let x₀ := sevensCompany.during fun _ => []
  let scan₀ : Option FileScan := some ⟨Database.numbersOnDisk, some (.ofPages 2)⟩
  have hrow : (Database.numbersTable.cursor.pull scan₀ x₀).1 =
      .ok (some (Database.numbersRow 7 0 0)) := by cbv
  have hheld : (handles (scan Database.numbersTable)
      (Database.numbersTable.cursor.pull scan₀ x₀).2.1).length = 1 := by cbv
  rcases hpull : Database.numbersTable.cursor.pull scan₀ x₀ with ⟨answer, scan₁, x₁⟩
  rw [hpull] at hrow hheld
  obtain rfl : answer = _ := hrow
  refine ⟨scan₁, x₁, Lookahead.hasNext_of_fetch ?_, hheld⟩
  show Cursor.find _ Database.numbersTable.finite_cursor (Predicate.test ⟨0, .eq, .int 7⟩) _ _ = _
  exact Cursor.find_of_some hpull

/-- While the filter holds a page, all tables are forgotten.  Opening the filter again fails, and
the page is given back. -/
theorem start_error_close_released_sevens :
    ∃ s y e s' x, LeadsTo (fun _ => True) sevens sevens.initial
        (Company.onDisk ⟨8, 2⟩ Database.numbersDisk) s y ∧
      (sevens.handles s).length = 1 ∧
      (sevens.cursor .plain).start s (y.during fun _ => []) = (.error e, s', x) ∧
      sevens.Released s' x.world := by
  obtain ⟨scan₁, x₁, hask, hheld⟩ := hasNext_sevensOpened
  have hholding := leadsTo_sevensOpened.call .plain .hasNext (fun _ => []) fun _ _ _ => trivial
  rw [Cursor.act, hask] at hholding
  have hforgotten := hholding.deed (d := .manage .clearCatalog trivial) trivial
  exact ⟨_, _, _, _, _, hforgotten, hheld, rfl,
    (start_error_close_released (fun _ h => by cases h) hforgotten .plain fun _ => []).1 _ _ _ rfl⟩

/-! ## One frame per table scan -/

lemma length_handles_le (p : Plan) (s : p.State) : (p.handles s).length ≤ p.scans := by
  rw [← need_footprint, ← Multiset.coe_card, ← held_footprint]
  exact p.footprint.card_held s

/-- **One frame per table scan is enough.**  The cursor of a plan starts out new, with a database on
any disk, and comes to some state by any calls and anything that others do.  Then the handles that
are out are those of the plan and those that others keep, and every operator of the plan pins at
most one frame for each table scan in it.  If there are that many frames beside those that others
pin, no call fails for want of one, whatever they do before the requests that are made in it, as
long as they pin no more frames by that.  The pool has no more frames than frame numbers can tell
apart. -/
theorem frame_per_scan {Kind : Deed → Prop} {p : Plan} {s : p.State} {y : Company}
    {config : Config} {disk : Disk} (_ : config.poolPages ≤ Pool.maxFrames)
    (h : LeadsTo Kind p p.initial (Company.onDisk config disk) s y) :
    (y.db.pool.out : Multiset ℕ) = (p.handles s : Multiset (Handle Page)).map Handle.ticket +
        y.tickets ∧
      (∀ o ∈ p.operators s,
        y.db.pool.pinnedBy ((o.1.handles o.2).map Handle.ticket) ≤ o.1.scans) ∧
      ∀ k, k + p.scans ≤ config.poolPages → y.pins ≤ k →
        ∀ (orders : p.Orders (Watched Company)) act meanwhile,
          Company.Calm k meanwhile ((p.cursor orders).act act s (y.during meanwhile)).2 →
            (p.cursor orders).failure? act s (y.during meanwhile) ≠ some (.error .poolFull) := by
  have horderly := Orderly.leadsTo h
  refine ⟨horderly.accounts.out_eq, fun o ho => ?_,
    fun k hk hpins orders act meanwhile hcalm hfull => ?_⟩
  · calc y.db.pool.pinnedBy ((o.1.handles o.2).map Handle.ticket)
        ≤ ((o.1.handles o.2).map Handle.ticket).length :=
          horderly.accounts.sound.pool.pinnedBy_le_length _
      _ = (o.1.handles o.2).length := List.length_map _
      _ ≤ o.1.scans := o.1.length_handles_le o.2
  · exact ((horderly.call orders act meanwhile hpins).2 hfull hcalm).not_ge hk

/-- Another client keeps one of two frames, and the filter gets along with the other. -/
theorem frame_per_scan_sevens :
    ∃ s y, LeadsTo (fun _ => True) sevens sevens.initial
        (Company.onDisk ⟨8, 2⟩ Database.numbersDisk) s y ∧ y.pins = 1 ∧
      (sevens.cursor .plain).failure? .hasNext s (y.during fun _ => []) ≠
        some (.error .poolFull) := by
  have htaken := leadsTo_sevensOpened.deed (d := .take Database.numbersPage) trivial
  have hpins : (sevensCompany.act (.take Database.numbersPage)).pins = 1 := by cbv
  refine ⟨_, _, htaken, hpins, (frame_per_scan (by decide) htaken).2.2 1 (by decide) hpins.le .plain
    .hasNext (fun _ => []) fun _ _ _ _ hbusy => absurd rfl hbusy⟩

end Plan

end RowStore
