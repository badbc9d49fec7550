import RowStore.Proofs.Query.Following
import RowStore.Proofs.Query.Reordering
import RowStore.Proofs.Query.Semantics

/-!
# Plans with an order for every aggregation

In the cursor of a plan each aggregation can have an order of its own in which it lists its groups
(`Plan.Orders`).  What is opened is then a cursor with a course that the plan unfolds to
(`Plan.opens_unfolds`).  As for evaluating a plan, this is a relation because the groups may come in
any order; but it also holds where requests are refused, and then says so.

Any two courses that a plan unfolds to are the same up to order, unless something fails in one of
them (`Plan.exists_perm_of_unfolds`).
-/

namespace RowStore

variable {W σ τ : Type}

/-! ## Opening -/

/-- What comes of an aggregation, when its child fails to open or has a course: it summarizes what
the child hands out while nothing is held, and lists the results in some order. -/
def Aggregation.Unfolds (a : Aggregation)
    (below result : Except Failure (Finset PageId → Course)) : Prop :=
  let summary := below.bind fun whole => a.summarize (Course.answers (whole ∅))
  (∃ list arranged : List Row, summary = .ok list ∧ arranged.Perm list ∧
      result = .ok fun _ => Course.ofRows ∅ arranged) ∨
    ∃ e, summary = .error e ∧ result = .error e

variable [Storage W]

namespace Source

/-- What comes of opening: a failure, or a state in which nothing is held and a whole course is
ahead, under whatever pages. -/
inductive Begins (S : Source W) (F : Footprint σ) (pull : Call W σ (Option Row))
    (rewind : Call W σ Unit) :
    Except Failure (Finset PageId → Course) → Except Failure Unit × σ × W → Prop
  | failed {e : Failure} {s : σ} {w : W} : Begins S F pull rewind (.error e) (.error e, s, w)
  | ready {whole : Finset PageId → Course} {At : Finset PageId → Course → σ → Prop} {s : σ} {w : W}
    (hfollows : S.Follows F pull rewind whole At) (hs : ∀ Q, At Q (whole Q) s)
    (hheld : F.held s = 0) (hw : S.Good 0 w) : Begins S F pull rewind (.ok whole) (.ok (), s, w)

/-- Opening a cursor in some state, when nothing is held, has one of some results. -/
def Opens (S : Source W) (F : Footprint σ) (start : Call W σ Unit) (pull : Call W σ (Option Row))
    (rewind : Call W σ Unit) (s : σ) (Possible : Except Failure (Finset PageId → Course) → Prop) :
    Prop :=
  ∀ w, S.Good 0 w → ∃ result, Possible result ∧ S.Begins F pull rewind result (start s w)

variable {S : Source W} {F : Footprint σ} {s : σ}
  {Possible : Except Failure (Finset PageId → Course) → Prop}

/-- A cursor opens as its feed does. -/
lemma Opens.lookahead {f : Feed W σ} (hf : S.Opens F f.start f.fetch f.rewind s Possible) :
    S.Opens F.lookahead (Lookahead.cursor f).start (Lookahead.cursor f).pull
      (Lookahead.cursor f).rewind (Lookahead.closed s) Possible := by
  intro w hw
  obtain ⟨result, hpossible, hbegins⟩ := hf w hw
  refine ⟨result, hpossible, ?_⟩
  simp only [Lookahead.cursor, Lookahead.start, Lookahead.closed]
  rcases heq : f.start s w with ⟨answer, feed, w'⟩
  rw [heq] at hbegins
  cases hbegins with
  | failed => exact .failed
  | ready hfollows hs hheld hw' =>
    exact .ready hfollows.lookahead (fun Q => ⟨feed, rfl, hs Q⟩) hheld hw'

lemma opens_rows (rows : List Row) (position : ℕ) :
    S.Opens (.nothing ℕ) (RowList.feed rows).start (RowList.feed rows).fetch
      (RowList.feed rows).rewind position (· = .ok fun _ => Course.ofRows ∅ rows) :=
  fun _ hw => ⟨_, rfl, .ready (follows_rows rows) (fun _ => rfl) rfl hw⟩

/-- What becomes of the scan of a table: it is refused, or has a course. -/
def tableCourse (S : Source W) (t : TableScan) : Except Failure (Finset PageId → Course) :=
  match S.heapFile t.table with
  | .error e => .error (.error e)
  | .ok file =>
    if file.schema.shape = t.schema.shape then
      match S.pageCount file with
      | .error e => .error (.error e)
      | .ok count => .ok fun Q => S.scanCourse file Q (.ofPages count)
    else .error (.error (.typeMismatch t.schema.text file.schema.text))

lemma opens_table {t : TableScan} (hserves : S.Serves t.table) :
    S.Opens .table t.cursor.start t.cursor.pull t.cursor.rewind none (· = S.tableCourse t) := by
  intro w hw
  refine ⟨_, rfl, ?_⟩
  have hlookup := S.heapFile_eq hw t.table
  simp only [tableCourse, TableScan.cursor, TableScan.start, FileScan.start, FileScan.closed,
    FileScan.letGo, hlookup, S.pageCount_eq hw]
  rcases hfile : S.heapFile t.table with e | file
  · exact .failed
  · dsimp only
    split
    · rcases hcount : S.pageCount file with e | count
      · exact .failed
      · rw [← S.id_eq hfile] at hserves hfile
        exact .ready (follows_table hserves hfile hcount t) (fun Q => ⟨_, rfl, _, rfl, rfl, rfl⟩)
          rfl hw
    · exact .failed

lemma Opens.filter {c : Cursor W σ} (hc : S.Opens F c.start c.pull c.rewind s Possible)
    (fin : c.Finite) (test : Row → Except Failure Bool) :
    S.Opens F (Filter.feed test c fin).start (Filter.feed test c fin).fetch
      (Filter.feed test c fin).rewind s fun result => ∃ below, Possible below ∧
        result = below.map fun whole Q => Course.filter test (whole Q) := by
  intro w hw
  obtain ⟨below, hpossible, hbegins⟩ := hc w hw
  refine ⟨_, ⟨below, hpossible, rfl⟩, ?_⟩
  rcases heq : c.start s w with ⟨answer, s', w'⟩
  rw [heq] at hbegins
  simp only [Filter.feed, heq]
  cases hbegins with
  | failed => exact .failed
  | ready hfollows hs hheld hw' =>
    exact .ready (hfollows.filter fin test) (fun Q => ⟨_, hs Q, rfl⟩) hheld hw'

/-- Opening a join opens its left child and then its right one. -/
lemma Opens.join {G : Footprint τ} {j : Join W σ τ} {t : τ}
    {PossibleL PossibleR : Except Failure (Finset PageId → Course) → Prop}
    (hl : S.Opens F j.left.start j.left.pull j.left.rewind s PossibleL)
    (hr : S.Opens G j.right.start j.right.pull j.right.rewind t PossibleR) :
    S.Opens (F.join G) j.feed.start j.feed.fetch j.feed.rewind ⟨s, t, none⟩ fun result =>
      (∃ e, PossibleL (.error e) ∧ result = .error e) ∨
        ∃ wholeL below, PossibleL (.ok wholeL) ∧ PossibleR below ∧ result = below.map
          fun wholeR Q => Course.join j.schema j.test (wholeL Q) fun held => wholeR (held ∪ Q) := by
  intro w hw
  simp only [Join.feed, Join.start]
  obtain ⟨result, hpossible, hbegins⟩ := hl w hw
  rcases hleft : j.left.start s w with ⟨answer, left, w'⟩
  rw [hleft] at hbegins
  cases hbegins with
  | failed => exact ⟨_, .inl ⟨_, hpossible, rfl⟩, .failed⟩
  | ready hfollows hs hheld hw' =>
    obtain ⟨below, hpossible', hbegins⟩ := hr w' hw'
    refine ⟨_, .inr ⟨_, below, hpossible, hpossible', rfl⟩, ?_⟩
    rcases hright : j.right.start t w' with ⟨answer, right, w''⟩
    rw [hright] at hbegins
    simp only [hright]
    cases hbegins with
    | failed => exact .failed
    | ready hfollows' hs' hheld' hw'' =>
      refine .ready (hfollows.join hfollows') (fun Q => ?_) ?_ hw''
      · exact ⟨_, hs Q, .inl ⟨rfl, hheld', hs', rfl⟩⟩
      · exact (congrArg₂ (· + ·) hheld hheld').trans (Multiset.zero_add 0)

/-- Opening an aggregation opens its child and summarizes what the child hands out. -/
lemma Opens.aggregation {c : Cursor W σ} (hc : S.Opens F c.start c.pull c.rewind s Possible)
    (fin : c.Finite) (a : Aggregation) (order : Arrangement W) :
    S.Opens F.aggregation (a.feed order c fin).start (a.feed order c fin).fetch
      (a.feed order c fin).rewind ⟨s, none⟩ fun result => ∃ below, Possible below ∧
        a.Unfolds below result := by
  intro w hw
  obtain ⟨below, hpossible, hbegins⟩ := hc w hw
  simp only [Aggregation.feed, Aggregation.start]
  rcases hstart : c.start s w with ⟨answer, s₁, w₁⟩
  rw [hstart] at hbegins
  cases hbegins with
  | failed => exact ⟨_, ⟨_, hpossible, .inr ⟨_, rfl, rfl⟩⟩, .failed⟩
  | @ready whole _ _ _ hfollows hs hheld hw₁ =>
    rcases hinitial : a.aggregator with e | initial
    · refine ⟨_, ⟨_, hpossible, .inr ⟨.error e, ?_, rfl⟩⟩, .failed⟩
      show a.summarize (Course.answers (whole ∅)) = _
      rw [Aggregation.summarize, hinitial]
      rfl
    · obtain ⟨answer, s₂, w₂, hfold, hanswer, hpost⟩ :=
        hfollows.fold (R := 0) fin Aggregator.merge initial (hs _) ((good_iff hheld).2 hw₁)
      have hsummary := a.results_fold hinitial (Course.answers (whole ∅))
      rw [← pagesOf_zero, ← hanswer] at hsummary
      simp only [hfold]
      rcases answer with e | final
      · exact ⟨_, ⟨_, hpossible, .inr ⟨e, hsummary.symm, rfl⟩⟩, .failed⟩
      · obtain ⟨hheld', hw₂⟩ := hpost final rfl
        rcases hlist : final.results with e | list <;> simp only [hlist]
        · exact ⟨_, ⟨_, hpossible, .inr ⟨e, hsummary.symm.trans hlist, rfl⟩⟩, .failed⟩
        · exact ⟨_, ⟨_, hpossible, .inl ⟨list, order.apply w₂ list, hsummary.symm.trans hlist,
            order.perm w₂ list, rfl⟩⟩, .ready (follows_aggregation a order c fin _)
              (fun Q => ⟨0, rfl, hheld', rfl⟩) hheld' hw₂⟩

end Source

/-! ## Unfolding -/

namespace Plan

variable {S : Source W}

/-- Opening a plan fails, or leads to a course, under whatever pages others hold. -/
def Unfolds (S : Source W) : Plan → Except Failure (Finset PageId → Course) → Prop
  | rows _ list, result => result = .ok fun _ => Course.ofRows ∅ list
  | scan t, result => result = S.tableCourse t
  | filter predicate child, result => ∃ below, child.Unfolds S below ∧
      result = below.map fun whole Q => Course.filter predicate.test (whole Q)
  | join predicate left right, result =>
    (∃ e, left.Unfolds S (.error e) ∧ result = .error e) ∨
      ∃ wholeL below, left.Unfolds S (.ok wholeL) ∧ right.Unfolds S below ∧
        result = below.map fun wholeR Q => Course.join (left.schema.append right.schema)
          predicate.test (wholeL Q) fun held => wholeR (held ∪ Q)
  | aggregate a child, result => ∃ below, child.Unfolds S below ∧ a.Unfolds below result

/-- The tables that a plan scans. -/
def tables : Plan → List TableId
  | rows _ _ => []
  | scan t => [t.table]
  | filter _ child => child.tables
  | join _ left right => left.tables ++ right.tables
  | aggregate _ child => child.tables

/-- **A new cursor opens as its plan unfolds**, whatever orders its aggregations have. -/
theorem opens_unfolds (p : Plan) (hserves : ∀ table ∈ p.tables, S.Serves table)
    (orders : p.Orders W) :
    S.Opens p.footprint (p.cursor orders).start (p.cursor orders).pull (p.cursor orders).rewind
      p.initial (p.Unfolds S) := by
  induction p with
  | rows schema list => exact (Source.opens_rows list 0).lookahead
  | scan t => exact Source.opens_table (hserves _ List.mem_cons_self)
  | filter predicate child ih =>
    exact ((ih hserves orders).filter (child.finite_cursor orders) predicate.test).lookahead
  | join predicate left right ihl ihr =>
    exact (Source.Opens.join
      (ihl (fun table h => hserves table (List.mem_append_left _ h)) orders.1)
      (ihr (fun table h => hserves table (List.mem_append_right _ h)) orders.2)).lookahead
  | aggregate a child ih =>
    exact ((ih hserves orders.2).aggregation (child.finite_cursor orders.2) a orders.1).lookahead

/-- **What a plan unfolds to is the same up to order**, unless something fails in it. -/
theorem exists_perm_of_unfolds {p : Plan} {whole : Finset PageId → Course}
    {result : Except Failure (Finset PageId → Course)} (h : p.Unfolds S (.ok whole))
    (h' : p.Unfolds S result) :
    ∃ whole', result = .ok whole' ∧ ∀ Q, (whole Q).Clean → (whole' Q).Perm (whole Q) := by
  induction p generalizing whole result with
  | rows schema list => exact ⟨whole, h'.trans h.symm, fun _ _ => .refl _⟩
  | scan t => exact ⟨whole, h'.trans h.symm, fun _ _ => .refl _⟩
  | filter predicate child ih =>
    obtain ⟨_ | below, hbelow, heq⟩ := h
    · cases heq
    · obtain ⟨_, hbelow', rfl⟩ := h'
      obtain ⟨below', rfl, hperm⟩ := ih hbelow hbelow'
      cases heq
      exact ⟨_, rfl, fun Q hclean => Course.filter_perm (hperm Q hclean.of_filter)⟩
  | join predicate left right ihl ihr =>
    obtain ⟨e, -, heq⟩ | ⟨wholeL, _ | wholeR, hleft, hright, heq⟩ := h
    · cases heq
    · cases heq
    · obtain ⟨e, hleft', -⟩ | ⟨wholeL', _, hleft', hright', rfl⟩ := h'
      · obtain ⟨_, hok, -⟩ := ihl hleft hleft'
        cases hok
      · obtain ⟨_, hok, hpermL⟩ := ihl hleft hleft'
        obtain ⟨wholeR', rfl, hpermR⟩ := ihr hright hright'
        cases hok
        cases heq
        exact ⟨_, rfl, fun Q hclean =>
          Course.join_perm hclean (hpermL Q hclean.of_join.1) fun held => hpermR (held ∪ Q)⟩
  | aggregate a child ih =>
    obtain ⟨_ | below, hbelow, ⟨list, arranged, hlist, hperm, heq⟩ | ⟨e, -, heq⟩⟩ := h
    · cases hlist
    · cases heq
    · obtain ⟨_, hbelow', hcases⟩ := h'
      obtain ⟨below', rfl, hsame⟩ := ih hbelow hbelow'
      obtain ⟨-, entries, hentries, -⟩ := Aggregation.summarize_eq_ok_iff.1 hlist
      obtain ⟨list', hlist', hpermList⟩ := Aggregation.exists_summarize_of_perm
        (Course.answers_perm (hsame ∅ (Course.clean_of_mapM (fun _ => rfl) hentries))) hlist
      obtain ⟨list'', arranged', hlist'', hperm', rfl⟩ | ⟨e, hfailed, -⟩ := hcases
      · obtain rfl := Except.ok.inj (hlist''.symm.trans hlist')
        cases heq
        exact ⟨_, rfl, fun _ _ => (hperm'.trans (hpermList.trans hperm.symm)).map _⟩
      · cases hlist'.symm.trans hfailed
    · cases heq

end Plan

end RowStore
