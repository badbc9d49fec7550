import RowStore.Proofs.Database.Undisturbed
import RowStore.Proofs.Query.Lifecycle
import RowStore.Proofs.Query.Unfolding

/-!
# Results do not depend on the order of groups

In which order an aggregation lists its groups is left to chance.  Here two executions of a plan are
compared that differ in nothing else: if one of them can be opened and drained, then so can the
other, and they hand out the same rows, in some order (`Plan.drains_in_any_order`).

Nothing is asked of the pool.  It may be too small for the plan, so that executions fail; but
whether they do is settled by the pairs of pages that a join needs at the same time, and these are
the same whatever the order.

What is asked is that the resident pages are what their files hold.  A page that is out of date is
replaced when it has to give way, and the order of groups can decide when that is: a join that looks
for matches of one group after the other finds those of the first group on the old page, and those
of the others on the new one (`Plan.drains_overtaken`).
-/

namespace RowStore

/-! ## Aggregators -/

namespace Aggregator

/-- Takes in rows, one after the other, except for those that it refuses. -/
def mergeAll (x : Aggregator) (rows : List Row) : Aggregator :=
  rows.foldl (fun x row => (x.merge row).toOption.getD x) x

variable {g : Aggregation} {x : Aggregator}

/-- An aggregator refuses the rows that have nothing to contribute, whatever it has taken in. -/
lemma For.foldlM_merge (hx : x.For g) (rows : List Row) :
    (Answers.ofRows (rows.filter fun row => (g.entry row).isOk)).foldlM
      (fun x answer => answer.bind x.merge) x = .ok (x.mergeAll rows) := by
  induction rows generalizing x with
  | nil => rfl
  | cons row rest ih =>
    have hmerge := hx.merge row
    have hall : x.mergeAll (row :: rest) = ((x.merge row).toOption.getD x).mergeAll rest := rfl
    rcases hentry : g.entry row with e | entry <;> rw [hentry] at hmerge <;> rw [hall, hmerge]
    · rw [List.filter_cons_of_neg (by rw [hentry]; exact Bool.false_ne_true)]
      exact ih hx
    · rw [List.filter_cons_of_pos (by rw [hentry]; rfl)]
      show (x.merge row).bind _ = _
      rw [hmerge]
      exact ih (hx.put entry)

lemma results_mergeAll (h : g.aggregator = .ok x) (rows : List Row) :
    (x.mergeAll rows).results =
      g.summarize (Answers.ofRows (rows.filter fun row => (g.entry row).isOk)) := by
  rw [← g.results_fold h, (for_aggregator h).foldlM_merge]
  rfl

/-- Rows that are taken in in another order have the same results. -/
lemma exists_results_of_perm (h : g.aggregator = .ok x) {rows rows' list : List Row}
    (hperm : rows'.Perm rows) (hlist : (x.mergeAll rows).results = .ok list) :
    ∃ list', (x.mergeAll rows').results = .ok list' ∧ list'.Perm list := by
  rw [results_mergeAll h] at hlist ⊢
  exact Aggregation.exists_summarize_of_perm ((hperm.filter _).map _) hlist

end Aggregator

/-! ## Plans -/

namespace Plan

variable {W : Type} [Storage W]

/-- A new cursor of a plan, with an order for every aggregation, can be opened and drained, and this
gives certain rows. -/
def Drains (p : Plan) (orders : p.Orders W) (w : W) (rows : List Row) : Prop :=
  ∃ s₁ w₁ s₂ w₂, (p.cursor orders).start p.initial w = (.ok (), s₁, w₁) ∧
    p.drain orders s₁ w₁ = (.ok rows, s₂, w₂)

/-- In a source, the rows are those of a course that the plan unfolds to. -/
lemma exists_unfolds_of_good {S : Source W} {p : Plan}
    (hserves : ∀ table ∈ p.tables, S.Serves table) {w : W} (hw : S.Good 0 w)
    (orders : p.Orders W) :
    ∃ result, p.Unfolds S result ∧ ∀ rows, p.Drains orders w rows ↔
      ∃ whole, result = .ok whole ∧ Answers.drain (Course.answers (whole ∅)) = .ok rows := by
  obtain ⟨result, hunfolds, hbegins⟩ := p.opens_unfolds hserves orders w hw
  refine ⟨result, hunfolds, fun rows => ?_⟩
  rcases hstart : (p.cursor orders).start p.initial w with ⟨answer, s, w'⟩
  rw [hstart] at hbegins
  cases hbegins with
  | failed =>
    constructor
    · rintro ⟨s₁, w₁, s₂, w₂, hopen, -⟩
      cases hstart.symm.trans hopen
    · rintro ⟨whole, h, -⟩
      cases h
  | @ready whole _ _ _ hfollows hs hheld hw' =>
    obtain ⟨s', w'', hdrain⟩ := hfollows.drain (R := 0) (p.finite_cursor orders) (hs _)
      ((Source.good_iff hheld).2 hw')
    constructor
    · rintro ⟨s₁, w₁, s₂, w₂, hopen, hrows⟩
      cases hstart.symm.trans hopen
      exact ⟨whole, rfl, congrArg Prod.fst (hdrain.symm.trans hrows)⟩
    · rintro ⟨_, heq, hrows⟩
      cases heq
      exact ⟨s, w', s', w'', hstart, hdrain.trans (congrArg (·, s', w'') hrows)⟩

/-- Two executions that start in the same source and differ in the orders of groups. -/
lemma Drains.exists_perm {S : Source W} {p : Plan} (hserves : ∀ table ∈ p.tables, S.Serves table)
    {w : W} (hw : S.Good 0 w) {orders : p.Orders W} {rows : List Row} (h : p.Drains orders w rows)
    (orders' : p.Orders W) : ∃ rows', p.Drains orders' w rows' ∧ rows'.Perm rows := by
  obtain ⟨_, hunfolds, hrows⟩ := exists_unfolds_of_good hserves hw orders
  obtain ⟨result, hunfolds', hrows'⟩ := exists_unfolds_of_good hserves hw orders'
  obtain ⟨whole, rfl, hdrain⟩ := (hrows rows).1 h
  obtain ⟨whole', rfl, hperm⟩ := exists_perm_of_unfolds hunfolds hunfolds'
  have hclean : (whole ∅).Clean := Course.clean_of_mapM (fun _ => rfl) hdrain
  obtain ⟨rows', hdrain', hsame⟩ :=
    exists_mapM_of_perm (Course.answers_perm (hperm ∅ hclean)) hdrain
  exact ⟨rows', (hrows' rows').2 ⟨whole', rfl, hdrain'⟩, hsame⟩

/-- What an execution hands out is settled by the orders of groups and the world it starts in. -/
lemma Drains.eq {p : Plan} {orders : p.Orders W} {w : W} {rows rows' : List Row}
    (h : p.Drains orders w rows) (h' : p.Drains orders w rows') : rows' = rows := by
  obtain ⟨s₁, w₁, s₂, w₂, hstart, hdrain⟩ := h
  obtain ⟨_, _, _, _, hstart', hdrain'⟩ := h'
  cases hstart.symm.trans hstart'
  cases hdrain.symm.trans hdrain'
  rfl

/-- **Results do not depend on the order of groups.**  In a world in which it is settled by the
pages that are held how a request is answered, let a new cursor of a plan be opened and drained,
with any order of groups for each of its aggregations.  Then it can be opened and drained with any
other orders too, and this gives the same rows up to order.  Such a world is a database on any disk,
after anything that others have done to it, if the resident pages of the tables that the plan scans
are up to date, as they always are while nobody writes to the files (`Company.current_run`).

In particular, whatever rows an aggregator has taken in, it has the same results up to order if it
has taken them in in another order. -/
theorem drains_in_any_order :
    (∀ (W : Type) [Storage W] (S : Source W) (p : Plan), (∀ table ∈ p.tables, S.Serves table) →
      ∀ w, S.Good 0 w → ∀ orders orders' rows, p.Drains orders w rows →
        ∃ rows', p.Drains orders' w rows' ∧ rows'.Perm rows) ∧
    (∀ (config : Config) (disk : Disk) (deeds : List Deed) (p : Plan),
      let y := (Company.onDisk config disk).run deeds
      y.db.Current (· ∈ p.tables) → ∀ orders orders' rows, p.Drains orders y rows →
        ∃ rows', p.Drains orders' y rows' ∧ rows'.Perm rows) ∧
    ∀ (a : Aggregation) x, a.aggregator = .ok x → ∀ merged merged' list, merged'.Perm merged →
      (x.mergeAll merged).results = .ok list →
        ∃ list', (x.mergeAll merged').results = .ok list' ∧ list'.Perm list := by
  refine ⟨?_, ?_, ?_⟩
  · intro W _ S p hserves w hw orders orders' rows h
    exact h.exists_perm hserves hw orders'
  · intro config disk deeds p y hcurrent orders orders' rows h
    have haccounts : y.Accounts config.poolPages 0 :=
      (Company.accounts_onDisk config disk).run deeds
    exact h.exists_perm (S := Company.source (· ∈ p.tables) y config.poolPages
      haccounts.sound.id_eq) (fun _ htable => htable) (.refl haccounts hcurrent) orders'
  · intro a x hx merged merged' list hperm hlist
    exact Aggregator.exists_results_of_perm hx hperm hlist

/-- The aggregation that counts how often each number occurs. -/
def tally : Aggregation :=
  ⟨0, .int, some 0, .count, ⟨[⟨.int, none⟩, Aggregation.resultColumn .count none], by decide⟩⟩

/-- What it says of a number. -/
def tallied (n count : Int32) : Row := ⟨tally.schema, [some (.int n), some (.int count)], none⟩

/-- The plan that counts the numbers in the table on disk. -/
def tallies : Plan := aggregate tally (scan Database.numbersTable)

/-- The order that lists groups as they first occurred, from the last one on. -/
def reversed : Arrangement Company := ⟨fun _ rows => rows.reverse, fun _ rows => rows.reverse_perm⟩

/-- The numbers in the table on disk are counted with two orders of groups; and an aggregator takes
in 9 and twice 7 in two orders. -/
theorem drains_in_any_order_numbers :
    (∃ rows rows', tallies.Drains (.plain, ()) sevensCompany rows ∧
      tallies.Drains (reversed, ()) sevensCompany rows' ∧ rows'.Perm rows ∧
      rows.Perm [tallied 7 1, tallied 9 1, tallied 11 1]) ∧
    ∃ x list, tally.aggregator = .ok x ∧
      (x.mergeAll [Database.numbersRow 7 0 0, Database.numbersRow 9 0 1,
        Database.numbersRow 7 0 0]).results = .ok list ∧
      list.Perm [tallied 9 1, tallied 7 2] := by
  let deeds : List Deed := [.manage (.openTable "a" numbers "a") trivial]
  have hrun : (Company.onDisk ⟨8, 2⟩ Database.numbersDisk).run deeds = sevensCompany :=
    congrArg (fun db => (⟨db, []⟩ : Company)) Database.run_openTable_numbers
  have haccounts := (Company.accounts_onDisk ⟨8, 2⟩ Database.numbersDisk).run deeds
  have hspares : ∀ d ∈ deeds, d.SparesPages := by
    intro d hd
    rw [List.mem_singleton.1 hd]
    trivial
  have hcurrent := Company.current_run ⟨8, 2⟩ Database.numbersDisk hspares (· ∈ tallies.tables)
  obtain ⟨-, hcompanies, haggregators⟩ := drains_in_any_order
  have hplans := hcompanies ⟨8, 2⟩ Database.numbersDisk deeds tallies
  rw [hrun] at haccounts hcurrent hplans
  let S := Company.source (· ∈ tallies.tables) sevensCompany 2 haccounts.sound.id_eq
  have hsummary : (S.tableCourse Database.numbersTable).bind
      (fun whole => tally.summarize (Course.answers (whole ∅))) =
        .ok [tallied 7 1, tallied 9 1, tallied 11 1] := by cbv
  constructor
  · obtain ⟨_, ⟨_, rfl, hresult⟩, hrows⟩ := exists_unfolds_of_good (S := S) (p := tallies)
      (fun _ htable => htable) (.refl haccounts hcurrent) (.plain, ())
    obtain ⟨list, rows, hlist, hperm, rfl⟩ | ⟨e, he, -⟩ := hresult
    · obtain rfl := Except.ok.inj (hlist.symm.trans hsummary)
      have hdrains := (hrows rows).2 ⟨_, rfl, by
        rw [Course.answers_ofRows, Answers.drain_ofRows]⟩
      obtain ⟨rows', hdrains', hsame⟩ := hplans hcurrent _ (reversed, ()) rows hdrains
      exact ⟨rows, rows', hdrains, hdrains', hsame, hperm⟩
    · cases he.symm.trans hsummary
  · obtain ⟨list, hlist, hperm⟩ := haggregators tally _ rfl
      [Database.numbersRow 9 0 1, Database.numbersRow 7 0 0, Database.numbersRow 7 0 0]
      [Database.numbersRow 7 0 0, Database.numbersRow 9 0 1, Database.numbersRow 7 0 0]
      [tallied 9 1, tallied 7 2] (.swap _ _ _) (by cbv)
    exact ⟨_, list, rfl, hlist, hperm⟩

/-! ### A page that is out of date -/

/-- A row with a number. -/
def single (n : Int32) : Row := ⟨numbers, [some (.int n)], none⟩

/-- The plan that counts how often 1 and 2 occur in two rows. -/
def singles : Plan := aggregate tally (rows numbers [single 1, single 2])

/-- The plan that looks the counted numbers up in the table on disk. -/
def lookups : Plan := join ⟨0, .eq, 0⟩ singles (scan Database.numbersTable)

/-- A number that was found, with its count. -/
def met (n : Int32) : Row := ⟨lookups.schema, [some (.int n), some (.int 1), some (.int n)], none⟩

/-- The disk with two pages in a file, of which the first has 1 and 2. -/
def earlier : Disk :=
  (Disk.ofHome []).put "/a" (.ofList
    [0, 0, 0, 3, 0, 0, 0, 1, 0, 0, 0, 2, 0, 0, 0, 0, 0, 0, 0, 0, 0, 0, 0, 0])

/-- The disk with two pages without rows in the file. -/
def later : Disk := (Disk.ofHome []).put "/a" (.ofList (List.replicate 24 0))

/-- The first page is requested before the file is written anew. -/
def overtaken : List Deed :=
  [.manage (.openTable "a" numbers "a") trivial, .take Database.numbersPage, .giveBack 0,
    .manage (.write later) trivial]

/-- A company with one frame, and a page in it that is out of date. -/
def overtakenCompany : Company := (Company.onDisk ⟨8, 1⟩ earlier).run overtaken

/-- The scan of the table, when it was opened and pulled several times. -/
def firstPass : ℕ → Option FileScan × Company
  | 0 => (some ⟨Database.numbersOnDisk, some (.ofPages 2)⟩, overtakenCompany)
  | n + 1 => (Database.numbersTable.cursor.pull (firstPass n).1 (firstPass n).2).2

/-- The scan, when it was taken back after that and pulled several times again. -/
def secondPass : ℕ → Option FileScan × Company
  | 0 => (Database.numbersTable.cursor.rewind (firstPass 3).1 (firstPass 3).2).2
  | n + 1 => (Database.numbersTable.cursor.pull (secondPass n).1 (secondPass n).2).2

/-- The first pass is on the old page until the other page takes its place. -/
lemma pull_firstPass :
    Database.numbersTable.cursor.pull (firstPass 0).1 (firstPass 0).2 =
        (.ok (some (Database.numbersRow 1 0 0)), firstPass 1) ∧
      Database.numbersTable.cursor.pull (firstPass 1).1 (firstPass 1).2 =
        (.ok (some (Database.numbersRow 2 0 1)), firstPass 2) ∧
      Database.numbersTable.cursor.pull (firstPass 2).1 (firstPass 2).2 = (.ok none, firstPass 3) ∧
      Database.numbersTable.cursor.rewind (firstPass 3).1 (firstPass 3).2 =
        (.ok (), secondPass 0) :=
  ⟨Prod.ext (by cbv) rfl, Prod.ext (by cbv) rfl, Prod.ext (by cbv) rfl, Prod.ext (by cbv) rfl⟩

/-- The second pass is on the new pages. -/
lemma pull_secondPass :
    Database.numbersTable.cursor.pull (secondPass 0).1 (secondPass 0).2 =
        (.ok none, secondPass 1) ∧
      ∃ s w, Database.numbersTable.cursor.rewind (secondPass 1).1 (secondPass 1).2 =
        (.ok (), s, w) :=
  ⟨Prod.ext (by cbv) rfl, _, _, Prod.ext (by cbv) rfl⟩

/-- The cursor over the counts, when some have been listed. -/
def listed (list : List Row) (position : ℕ) : singles.State :=
  (⟨⟨(⟨2, none, true⟩ : Lookahead ℕ), some (list, position)⟩, none, true⟩ :
    Lookahead (AggregationState (Lookahead ℕ)))

section

variable {order : Arrangement Company} {g g' r row : Row}

lemma start_singles (order : Arrangement Company) (w : Company) :
    (singles.cursor (order, ())).start singles.initial w =
      (.ok (), listed (order.apply w [tallied 1 1, tallied 2 1]) 0, w) := by
  let c : Cursor Company (Lookahead ℕ) := Lookahead.cursor (RowList.feed [single 1, single 2])
  have hopen : c.start (Lookahead.closed 0) w = (.ok (), ⟨0, none, true⟩, w) := rfl
  have hfirst : c.pull ⟨0, none, true⟩ w = (.ok (some (single 1)), ⟨1, none, true⟩, w) := rfl
  have hsecond : c.pull ⟨1, none, true⟩ w = (.ok (some (single 2)), ⟨2, none, true⟩, w) := rfl
  have hthird : c.pull ⟨2, none, true⟩ w = (.ok none, ⟨2, none, true⟩, w) := rfl
  have hfold : ∀ fin x, tally.aggregator = .ok x →
      c.fold fin Aggregator.merge x ⟨0, none, true⟩ w =
        (.ok (x.mergeAll [single 1, single 2]), ⟨2, none, true⟩, w) := by
    rintro fin x ⟨⟩
    exact (Cursor.fold_of_some hfirst).trans
      ((Cursor.fold_of_some hsecond).trans (Cursor.fold_of_none hthird))
  have haggregator : tally.aggregator =
      .ok (.numbers (.create (some 0) 0 .count tally.schema)) := rfl
  have hready : tally.start order c (Lookahead.finite_cursor (RowList.finite_feed _))
      ⟨Lookahead.closed 0, none⟩ w = (.ok (), ⟨⟨2, none, true⟩,
        some (order.apply w [tallied 1 1, tallied 2 1], 0)⟩, w) := by
    simp only [Aggregation.start, hopen, haggregator, hfold _ _ haggregator]
    rfl
  exact Lookahead.start_of_ready hready

lemma pull_singles (order : Arrangement Company) (g g' : Row) (w : Company) :
    (singles.cursor (order, ())).pull (listed [g, g'] 0) w =
        (.ok (some g), listed [g, g'] 1, w) ∧
      (singles.cursor (order, ())).pull (listed [g, g'] 1) w =
        (.ok (some g'), listed [g, g'] 2, w) ∧
      (singles.cursor (order, ())).pull (listed [g, g'] 2) w =
        (.ok none, listed [g, g'] 2, w) :=
  ⟨rfl, rfl, rfl⟩

/-- The join of the counts, which are listed in some order, with the table. -/
def lookup (order : Arrangement Company) : Join Company singles.State (Option FileScan) :=
  ⟨lookups.schema, JoinPredicate.test ⟨0, .eq, 0⟩, singles.cursor (order, ()),
    singles.finite_cursor (order, ()), Database.numbersTable.cursor,
    Database.numbersTable.finite_cursor⟩

/-- If the count that is listed first is met on the first pass, it is met once, and the other one is
not met on the second pass. -/
lemma drains_lookups {k : ℕ}
    (horder : order.apply overtakenCompany [tallied 1 1, tallied 2 1] = [g, g'])
    (hmet : (lookup order).right.find (lookup order).rightFinite ((lookup order).test g)
      (firstPass 0).1 (firstPass 0).2 = (.ok (some r), firstPass k))
    (hrest : (lookup order).right.find (lookup order).rightFinite ((lookup order).test g)
      (firstPass k).1 (firstPass k).2 = (.ok none, firstPass 3))
    (hrow : Row.append lookups.schema g r = .ok row) :
    lookups.Drains ((order, ()), ()) overtakenCompany [row] := by
  obtain ⟨-, -, -, hagain⟩ := pull_firstPass
  obtain ⟨hnone, s, w, hend⟩ := pull_secondPass
  obtain ⟨-, hsecond, -⟩ := pull_singles order g g' (secondPass 0).2
  obtain ⟨-, -, hthird⟩ := pull_singles order g g' w
  have hstart : (lookup order).start ⟨singles.initial, none, none⟩ overtakenCompany =
      (.ok (), ⟨listed [g, g'] 0, (firstPass 0).1, none⟩, (firstPass 0).2) := by
    have hopen : Database.numbersTable.cursor.start none overtakenCompany = (.ok (), firstPass 0) :=
      TableScan.start_of_ok (by cbv) rfl (by cbv)
    simp only [Join.start, lookup, start_singles, horder, hopen]
  have hfetch : (lookup order).feed.fetch ⟨listed [g, g'] 0, (firstPass 0).1, none⟩
      (firstPass 0).2 =
        (.ok (some row), ⟨listed [g, g'] 1, (firstPass k).1, some g⟩, (firstPass k).2) := by
    refine (Join.fetch_of_some (j := lookup order) (pull_singles order g g' _).1).trans ?_
    refine (Join.search_of_some (j := lookup order) hmet).trans ?_
    rw [show (lookup order).schema = lookups.schema from rfl, hrow]
    rfl
  have hlast : (lookup order).feed.fetch ⟨listed [g, g'] 1, (firstPass k).1, some g⟩
      (firstPass k).2 = (.ok none, ⟨listed [g, g'] 2, s, none⟩, w) := by
    refine (Join.search_of_none (j := lookup order) hrest hagain).trans ?_
    refine (Join.fetch_of_some (j := lookup order) hsecond).trans ?_
    refine (Join.search_of_none (j := lookup order) (Cursor.find_of_none hnone) hend).trans ?_
    exact Join.fetch_of_none hthird
  have hdrain : (Lookahead.cursor (lookup order).feed).drain
      (Lookahead.finite_cursor (lookup order).finite_feed)
      ⟨⟨listed [g, g'] 0, (firstPass 0).1, none⟩, none, true⟩ (firstPass 0).2 =
        (.ok [row], ⟨⟨listed [g, g'] 2, s, none⟩, none, true⟩, w) := by
    simp only [Cursor.drain, Cursor.fold_of_some (Lookahead.pull_of_fetch hfetch),
      Cursor.fold_of_none (Lookahead.pull_of_fetch hlast)]
    rfl
  exact ⟨_, _, _, _, Lookahead.start_of_ready (f := (lookup order).feed) hstart, hdrain⟩

end

/-- Two executions that differ in the order of groups only hand out different rows: either count is
met if it is listed first, and not if the page has been replaced in the meantime. -/
theorem drains_overtaken :
    lookups.Drains ((.plain, ()), ()) overtakenCompany [met 1] ∧
      lookups.Drains ((reversed, ()), ()) overtakenCompany [met 2] ∧
      ¬ ∃ rows, lookups.Drains ((reversed, ()), ()) overtakenCompany rows ∧
        rows.Perm [met 1] := by
  obtain ⟨hone, htwo, hend, -⟩ := pull_firstPass
  have hplain : lookups.Drains ((.plain, ()), ()) overtakenCompany [met 1] :=
    drains_lookups (k := 1) rfl (Cursor.find_of_some hone)
      ((Cursor.find_of_some htwo).trans (Cursor.find_of_none hend)) rfl
  have hreversed : lookups.Drains ((reversed, ()), ()) overtakenCompany [met 2] :=
    drains_lookups (k := 2) rfl
      ((Cursor.find_of_some hone).trans (Cursor.find_of_some htwo)) (Cursor.find_of_none hend) rfl
  refine ⟨hplain, hreversed, ?_⟩
  rintro ⟨rows, hrows, hperm⟩
  rw [hreversed.eq hrows, List.perm_singleton] at hperm
  exact absurd hperm (by decide)

end Plan

end RowStore
