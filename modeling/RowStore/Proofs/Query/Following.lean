import RowStore.Proofs.Query.Courses
import RowStore.Proofs.Query.Scanning

/-!
# Following courses

A `Source` is a world in which the answer to a request is settled by the page and by the pages that
are held.  In such a world the pulls of a cursor can be foretold: the cursor *follows* a course
(`Source.Follows`) if its pulls give what the course says, up to the first failure.  What a cursor
does after a failure is left open.

As for what a cursor plays, the relation between states and courses is the point, and each operator
is taken by itself.  What is new is the frame.  The pages that others hold decide what a cursor
meets, so every course is one under certain pages held elsewhere; and a course can change its frame
only when it begins, which for the right child of a join is once per left row.
-/

namespace RowStore

variable {W σ τ β : Type} [Storage W]

/-! ## Sources -/

/-- The pages of some handles. -/
def pagesOf (H : Multiset (Handle Page)) : Finset PageId := (H.map fun h => h.content.id).toFinset

@[simp] lemma pagesOf_zero : pagesOf 0 = ∅ := rfl

lemma pagesOf_add (H K : Multiset (Handle Page)) : pagesOf (H + K) = pagesOf H ∪ pagesOf K := by
  rw [pagesOf, Multiset.map_add, Multiset.toFinset_add]
  rfl

/-- A world in which it is settled how a request is answered, by the page and by the pages that are
held. -/
structure Source (W : Type) [Storage W] where
  /-- The tables of which pages are requested. -/
  Serves : TableId → Prop
  /-- The heap files of the tables. -/
  heapFile : TableId → Except Error HeapFile
  /-- The numbers of pages of heap files. -/
  pageCount : HeapFile → Except Error ℕ
  /-- What a request for a page is answered with, while certain pages are held. -/
  page : Finset PageId → PageId → Except Error Page
  /-- The world is in order, with these handles out. -/
  Good : Multiset (Handle Page) → W → Prop
  id_eq : ∀ {table file}, heapFile table = .ok file → file.id = table
  heapFile_eq : ∀ {H w}, Good H w → ∀ table, Storage.heapFile table w = heapFile table
  pageCount_eq : ∀ {H w}, Good H w → ∀ file, Storage.pageCount file w = pageCount file
  refuse : ∀ {H w}, Good H w → ∀ {file id e}, Serves id.table → heapFile id.table = .ok file →
    page (pagesOf H) id = .error e → ∃ w', Storage.request id .readOnly w = (.error e, w')
  grant : ∀ {H w}, Good H w → ∀ {file id content}, Serves id.table →
    heapFile id.table = .ok file → page (pagesOf H) id = .ok content →
      ∃ h w', Storage.request id .readOnly w = (.ok h, w') ∧ h.content = content ∧
        h.content.id = id ∧ Good (h ::ₘ H) w'
  release : ∀ {H h w}, Good (h ::ₘ H) w → Good H (Storage.release h w)

namespace Source

variable (S : Source W) (F : Footprint σ)

/-- A pull gives what comes first in a course, while others hold certain handles.  At the end of a
course nothing is held. -/
inductive Gives (At : Course → σ → Prop) (R : Multiset (Handle Page)) :
    Course → Except Failure (Option Row) × σ × W → Prop
  | done {s : σ} {w : W} (hs : At [] s) (hheld : F.held s = 0) (hw : S.Good R w) :
    Gives At R [] (.ok none, s, w)
  | failed {e : Failure} {rest : Course} {s : σ} {w : W} :
    Gives At R (.error e :: rest) (.error e, s, w)
  | row {row : Row} {held : Finset PageId} {rest : Course} {s : σ} {w : W} (hs : At rest s)
    (hheld : pagesOf (F.held s) = held) (hw : S.Good (F.held s + R) w) :
    Gives At R (.ok (row, held) :: rest) (.ok (some row), s, w)

/-- The states and the courses ahead of them belong together: a pull gives what the course says, and
going back leads to a state from which the whole course is ahead, under whatever pages. -/
structure Follows (pull : Call W σ (Option Row)) (rewind : Call W σ Unit)
    (whole : Finset PageId → Course) (At : Finset PageId → Course → σ → Prop) : Prop where
  pull : ∀ {R course s w}, At (pagesOf R) course s → S.Good (F.held s + R) w →
    S.Gives F (At (pagesOf R)) R course (pull s w)
  rewind : ∀ {Q R course s w}, At Q course s → S.Good (F.held s + R) w →
    ∃ s' w', rewind s w = (.ok (), s', w') ∧ F.held s' = 0 ∧ S.Good R w' ∧ ∀ Q, At Q (whole Q) s'

variable {S F} {At : Finset PageId → Course → σ → Prop} {whole : Finset PageId → Course}
  {R : Multiset (Handle Page)} {course : Course} {s : σ} {w : W}

lemma good_iff (h : F.held s = 0) : S.Good (F.held s + R) w ↔ S.Good R w := by
  rw [h, Multiset.zero_add]

/-! ## Loops -/

namespace Follows

variable {c : Cursor W σ}

/-- Looking for a row that passes a test follows the course of these rows. -/
lemma filter (hc : S.Follows F c.pull c.rewind whole At) (fin : c.Finite)
    (test : Row → Except Failure Bool) :
    S.Follows F (c.find fin test) c.rewind (fun Q => Course.filter test (whole Q))
      fun Q course s => ∃ below, At Q below s ∧ course = Course.filter test below where
  pull {R course s w} hs hw := by
    obtain ⟨below, hs, rfl⟩ := hs
    induction below generalizing s w with
    | nil =>
      have hpull := hc.pull hs hw
      rcases heq : c.pull s w with ⟨answer, s', w'⟩
      rw [heq] at hpull
      cases hpull with
      | done hs' hheld hw' =>
        rw [Cursor.find_of_none heq]
        exact .done ⟨[], hs', rfl⟩ hheld hw'
    | cons head tail ih =>
      have hpull := hc.pull hs hw
      rcases heq : c.pull s w with ⟨answer, s', w'⟩
      rw [heq] at hpull
      cases hpull with
      | failed =>
        rw [Cursor.find_of_error heq]
        exact .failed
      | @row row held _ _ _ hs' hheld hw' =>
        rw [Cursor.find_of_some heq, Course.filter_cons, Course.keep]
        rcases test row with e | _ | _
        · exact .failed
        · exact ih hw' hs'
        · exact .row ⟨tail, hs', rfl⟩ hheld hw'
  rewind hs hw := by
    obtain ⟨below, hs, rfl⟩ := hs
    obtain ⟨s', w', heq, hheld, hw', hs'⟩ := hc.rewind hs hw
    exact ⟨s', w', heq, hheld, hw', fun Q => ⟨whole Q, hs' Q, rfl⟩⟩

/-- Folding all rows into an accumulator gives what folding the answers of the course gives. -/
lemma fold (hc : S.Follows F c.pull c.rewind whole At) (fin : c.Finite)
    (f : β → Row → Except Failure β) (b : β) (hs : At (pagesOf R) course s)
    (hw : S.Good (F.held s + R) w) :
    ∃ answer s' w', c.fold fin f b s w = (answer, s', w') ∧
      answer = (Course.answers course).foldlM (fun b answer => answer.bind (f b)) b ∧
      ∀ b', answer = .ok b' → F.held s' = 0 ∧ S.Good R w' := by
  induction course generalizing b s w with
  | nil =>
    have hpull := hc.pull hs hw
    rcases heq : c.pull s w with ⟨answer, s', w'⟩
    rw [heq] at hpull
    cases hpull with
    | done _ hheld hw' =>
      exact ⟨.ok b, s', w', Cursor.fold_of_none heq, rfl, fun _ _ => ⟨hheld, hw'⟩⟩
  | cons head tail ih =>
    have hpull := hc.pull hs hw
    rcases heq : c.pull s w with ⟨answer, s', w'⟩
    rw [heq] at hpull
    cases hpull with
    | failed => exact ⟨_, s', w', Cursor.fold_of_error heq, rfl, fun _ h => by cases h⟩
    | @row row held _ _ _ hs' hheld hw' =>
      have hfold : c.fold fin f b s w = _ := Cursor.fold_of_some heq
      have hlist : (Course.answers (.ok (row, held) :: tail)).foldlM
          (fun b answer => answer.bind (f b)) b =
            (f b row).bind fun b =>
              (Course.answers tail).foldlM (fun b answer => answer.bind (f b)) b :=
        List.foldlM_cons
      rw [hlist]
      rcases hb : f b row with e | b' <;> rw [hb] at hfold
      · exact ⟨_, s', w', hfold, rfl, fun _ h => by cases h⟩
      · obtain ⟨answer, s'', w'', hrun, hanswer, hpost⟩ := ih b' hs' hw'
        exact ⟨answer, s'', w'', hfold.trans hrun, hanswer, hpost⟩

/-- Draining a cursor gives the answers of its course, if there is no failure among them. -/
lemma drain (hc : S.Follows F c.pull c.rewind whole At) (fin : c.Finite)
    (hs : At (pagesOf R) course s) (hw : S.Good (F.held s + R) w) :
    ∃ s' w', c.drain fin s w = (Answers.drain (Course.answers course), s', w') := by
  obtain ⟨answer, s', w', heq, hanswer, -⟩ :=
    hc.fold fin (fun rows row => .ok (row :: rows)) [] hs hw
  rw [Service.foldlM_cons_eq_drain] at hanswer
  refine ⟨s', w', ?_⟩
  rcases hdrain : Answers.drain (Course.answers course) with e | list <;> rw [hdrain] at hanswer <;>
    subst hanswer
  · simp only [Cursor.drain, heq, Except.map]
  · simp only [Cursor.drain, heq, Except.map, List.append_nil, List.reverse_reverse]

end Follows

/-! ## One row ahead -/

variable {f : Feed W σ}

lemma Follows.lookahead (hf : S.Follows F f.fetch f.rewind whole At) :
    S.Follows F.lookahead (Lookahead.cursor f).pull (Lookahead.cursor f).rewind whole
      fun Q course s => ∃ feed, s = ⟨feed, none, true⟩ ∧ At Q course feed where
  pull {R course s w} hs hw := by
    obtain ⟨feed, rfl, hs⟩ := hs
    have hfetch := hf.pull hs hw
    rcases heq : f.fetch feed w with ⟨answer, feed', w'⟩
    rw [heq] at hfetch
    rw [Lookahead.pull_of_fetch heq]
    cases hfetch with
    | done hs' hheld hw' => exact .done ⟨feed', rfl, hs'⟩ hheld hw'
    | failed => exact .failed
    | row hs' hheld hw' => exact .row ⟨feed', rfl, hs'⟩ hheld hw'
  rewind hs hw := by
    obtain ⟨feed, rfl, hs⟩ := hs
    obtain ⟨feed', w', heq, hheld, hw', hs'⟩ := hf.rewind hs hw
    refine ⟨⟨feed', none, true⟩, w', ?_, hheld, hw', fun Q => ⟨feed', rfl, hs' Q⟩⟩
    simp only [Lookahead.cursor, Lookahead.rewind, heq, if_true]

/-! ## Rows in memory -/

lemma follows_rows (rows : List Row) :
    S.Follows (.nothing ℕ) (RowList.feed rows).fetch (RowList.feed rows).rewind
      (fun _ => Course.ofRows ∅ rows) fun _ course position =>
        course = Course.ofRows ∅ (rows.drop position) where
  pull {R course position w} hs hw := by
    obtain rfl := hs
    rcases hrow : rows[position]? with _ | row
    · have hdrop : rows.drop position = [] := List.drop_eq_nil_of_le (by simpa using hrow)
      have hfetch : (RowList.feed rows).fetch position w = (.ok none, position, w) := by
        simp only [RowList.feed, RowList.fetch, hrow]
      rw [hfetch, hdrop]
      exact .done (hdrop ▸ rfl) rfl ((good_iff rfl).1 hw)
    · obtain ⟨hlt, rfl⟩ := List.getElem?_eq_some_iff.1 hrow
      have hfetch : (RowList.feed rows).fetch position w =
          (.ok (some rows[position]), position + 1, w) := by
        simp only [RowList.feed, RowList.fetch, hrow]
      rw [hfetch, List.drop_eq_getElem_cons hlt]
      exact .row rfl rfl hw
  rewind _ hw := ⟨0, _, rfl, rfl, (good_iff rfl).1 hw, fun _ => rfl⟩

/-! ## Joins -/

section

variable {G : Footprint τ} {j : Join W σ τ} {AtL : Finset PageId → Course → σ → Prop}
  {AtR : Finset PageId → Course → τ → Prop} {wholeL wholeR : Finset PageId → Course}

/-- What is ahead of a join, while others hold certain pages.  Without a left row in hand the right
child holds nothing and all of it is ahead; with one it is somewhere in its course under the pages
that the left row keeps. -/
def Along (F : Footprint σ) (G : Footprint τ) (j : Join W σ τ)
    (AtL : Finset PageId → Course → σ → Prop) (AtR : Finset PageId → Course → τ → Prop)
    (wholeR : Finset PageId → Course) (Q : Finset PageId) (course : Course)
    (s : JoinState σ τ) : Prop :=
  ∃ ls, AtL Q ls s.left ∧
    (s.current = none ∧ G.held s.right = 0 ∧ (∀ Q, AtR Q (wholeR Q) s.right) ∧
        course = Course.join j.schema j.test ls (fun held => wholeR (held ∪ Q)) ∨
      ∃ l rs, s.current = some l ∧ AtR (pagesOf (F.held s.left) ∪ Q) rs s.right ∧
        course = Course.pair j.schema j.test l (pagesOf (F.held s.left)) rs ++
          Course.join j.schema j.test ls (fun held => wholeR (held ∪ Q)))

/-- A search with a left row in hand, if the join does what it should without one. -/
lemma Follows.search (hr : S.Follows G j.right.pull j.right.rewind wholeR AtR) {ls : Course}
    (hfetch : ∀ {left right w}, AtL (pagesOf R) ls left → G.held right = 0 →
      (∀ Q, AtR Q (wholeR Q) right) → S.Good (F.held left + R) w →
        S.Gives (F.join G) (Along F G j AtL AtR wholeR (pagesOf R)) R
          (Course.join j.schema j.test ls fun held => wholeR (held ∪ pagesOf R))
          (j.fetch ⟨left, right, none⟩ w))
    {rs : Course} {left : σ} {right : τ} {w : W} (hls : AtL (pagesOf R) ls left)
    (hrs : AtR (pagesOf (F.held left) ∪ pagesOf R) rs right)
    (hw : S.Good (F.held left + G.held right + R) w) (l : Row) :
    S.Gives (F.join G) (Along F G j AtL AtR wholeR (pagesOf R)) R
      (Course.pair j.schema j.test l (pagesOf (F.held left)) rs ++
        Course.join j.schema j.test ls fun held => wholeR (held ∪ pagesOf R))
      (j.search l left right w) := by
  have hframe : ∀ t : τ, F.held left + G.held t + R = G.held t + (F.held left + R) := fun t => by
    rw [Multiset.add_comm (F.held left), Multiset.add_assoc]
  rw [hframe] at hw
  rw [← pagesOf_add] at hrs
  have hfind := (hr.filter j.rightFinite (j.test l)).pull ⟨rs, hrs, rfl⟩ hw
  rcases heq : j.right.find j.rightFinite (j.test l) right w with ⟨answer, right', w'⟩
  rw [heq] at hfind
  rw [Course.pair]
  generalize Course.filter (j.test l) rs = found at hfind ⊢
  cases hfind with
  | done hs hheld hw' =>
    -- Nothing is left on the right: it is taken back, and the next left row is looked for.
    obtain ⟨below, hs, -⟩ := hs
    obtain ⟨right'', w'', hrewind, hheld', hw'', hall⟩ :=
      hr.rewind hs ((good_iff hheld).2 hw')
    rw [Join.search_of_none heq hrewind]
    exact hfetch hls hheld' hall hw''
  | failed =>
    rw [Join.search_of_error heq]
    exact .failed
  | @row r held' rest _ _ hs hheld hw' =>
    obtain ⟨below, hs, rfl⟩ := hs
    rw [Join.search_of_some heq, List.map_cons]
    rw [Course.behind]
    rcases Row.append j.schema l r with e | row
    · exact .failed
    · refine .row ⟨ls, hls, .inr ⟨l, below, rfl, ?_, rfl⟩⟩ ?_ ((hframe right').symm ▸ hw')
      · rw [← pagesOf_add]
        exact hs
      · exact (pagesOf_add _ _).trans (congrArg _ hheld)

/-- What a join does without a left row in hand. -/
lemma Follows.fetch_none (hl : S.Follows F j.left.pull j.left.rewind wholeL AtL)
    (hr : S.Follows G j.right.pull j.right.rewind wholeR AtR) {ls : Course} {left : σ} {right : τ}
    {w : W} (hls : AtL (pagesOf R) ls left) (hheld : G.held right = 0)
    (hall : ∀ Q, AtR Q (wholeR Q) right) (hw : S.Good (F.held left + R) w) :
    S.Gives (F.join G) (Along F G j AtL AtR wholeR (pagesOf R)) R
      (Course.join j.schema j.test ls fun held => wholeR (held ∪ pagesOf R))
      (j.fetch ⟨left, right, none⟩ w) := by
  induction ls generalizing left right w with
  | nil =>
    have hpull := hl.pull hls hw
    rcases heq : j.left.pull left w with ⟨answer, left', w'⟩
    rw [heq] at hpull
    cases hpull with
    | done hls' hheld' hw' =>
      have hfetch : j.fetch ⟨left, right, none⟩ w = (.ok none, ⟨left', right, none⟩, w') := by
        simp only [Join.fetch, heq]
      rw [hfetch]
      refine .done ⟨[], hls', .inl ⟨rfl, hheld, hall, rfl⟩⟩ ?_ hw'
      exact (congrArg₂ (· + ·) hheld' hheld).trans (Multiset.zero_add 0)
  | cons head tail ih =>
    have hpull := hl.pull hls hw
    rcases heq : j.left.pull left w with ⟨answer, left', w'⟩
    rw [heq] at hpull
    cases hpull with
    | failed =>
      simp only [Join.fetch, heq]
      exact .failed
    | @row l _ _ _ _ hls' hheld' hw' =>
      obtain rfl := hheld'
      have hfetch : j.fetch ⟨left, right, none⟩ w = j.search l left' right w' := by
        simp only [Join.fetch, heq]
      rw [hfetch]
      refine hr.search ih hls' (hall _) ?_ l
      rw [hheld, Multiset.add_zero]
      exact hw'

/-- **A join follows the course of the pairs of left and right rows that match.** -/
theorem Follows.join (hl : S.Follows F j.left.pull j.left.rewind wholeL AtL)
    (hr : S.Follows G j.right.pull j.right.rewind wholeR AtR) :
    S.Follows (F.join G) j.fetch j.rewind
      (fun Q => Course.join j.schema j.test (wholeL Q) fun held => wholeR (held ∪ Q))
      (Along F G j AtL AtR wholeR) where
  pull {R course s w} hs hw := by
    obtain ⟨left, right, current⟩ := s
    obtain ⟨ls, hls, ⟨rfl, hheld, hall, rfl⟩ | ⟨l, rs, rfl, hrs, rfl⟩⟩ := hs
    · refine hl.fetch_none hr hls hheld hall ?_
      rw [← Multiset.add_zero (F.held left), ← hheld]
      exact hw
    · exact hr.search (fun hls => hl.fetch_none hr hls) hls hrs hw l
  rewind {Q R course s w} hs hw := by
    obtain ⟨left, right, current⟩ := s
    have hw : S.Good (F.held left + (G.held right + R)) w := Multiset.add_assoc _ _ R ▸ hw
    obtain ⟨⟨ls, hls⟩, Q', rs, hrs⟩ : (∃ ls, AtL Q ls left) ∧ ∃ Q' rs, AtR Q' rs right := by
      obtain ⟨ls, hls, ⟨-, -, hall, -⟩ | ⟨l, rs, -, hrs, -⟩⟩ := hs
      · exact ⟨⟨ls, hls⟩, Q, _, hall Q⟩
      · exact ⟨⟨ls, hls⟩, _, rs, hrs⟩
    obtain ⟨left', w', hleft, hheld, hw', hallL⟩ := hl.rewind hls hw
    obtain ⟨right', w'', hright, hheld', hw'', hallR⟩ := hr.rewind hrs hw'
    refine ⟨⟨left', right', none⟩, w'', ?_, ?_, hw'', fun Q => ?_⟩
    · simp only [Join.rewind, hleft, hright]
    · exact (congrArg₂ (· + ·) hheld hheld').trans (Multiset.zero_add 0)
    · exact ⟨wholeL Q, hallL Q, .inl ⟨rfl, hheld', hallR, rfl⟩⟩

end

/-! ## Aggregations -/

/-- An aggregation follows its results; its child is left alone and holds nothing. -/
lemma follows_aggregation (a : Aggregation) (order : Arrangement W) (child : Cursor W σ)
    (fin : child.Finite) (rows : List Row) :
    S.Follows F.aggregation (a.feed order child fin).fetch (a.feed order child fin).rewind
      (fun _ => Course.ofRows ∅ rows) fun _ course s =>
        ∃ position, s.results = some (rows, position) ∧ F.held s.child = 0 ∧
          course = Course.ofRows ∅ (rows.drop position) where
  pull {R course s w} hs hw := by
    obtain ⟨child, results⟩ := s
    obtain ⟨position, rfl, hheld, rfl⟩ := hs
    have hgood : S.Good R w := (good_iff hheld).1 hw
    rcases hrow : rows[position]? with _ | row
    · have hdrop : rows.drop position = [] := List.drop_eq_nil_of_le (by simpa using hrow)
      simp only [Aggregation.feed, Aggregation.fetch, RowList.fetch, hrow, hdrop]
      exact .done ⟨position, rfl, hheld, hdrop ▸ rfl⟩ hheld hgood
    · obtain ⟨hlt, rfl⟩ := List.getElem?_eq_some_iff.1 hrow
      simp only [Aggregation.feed, Aggregation.fetch, RowList.fetch, hrow,
        List.drop_eq_getElem_cons hlt]
      exact .row ⟨position + 1, rfl, hheld, rfl⟩ (congrArg pagesOf hheld) hw
  rewind {Q R course s w} hs hw := by
    obtain ⟨child, results⟩ := s
    obtain ⟨position, rfl, hheld, rfl⟩ := hs
    exact ⟨⟨child, some (rows, 0)⟩, w, rfl, hheld, (good_iff hheld).1 hw,
      fun _ => ⟨0, rfl, hheld, rfl⟩⟩

end Source

/-! ## Scans -/

namespace FileScan

variable {file : HeapFile} {p q : ScanProgress} {w w' : W}

/-- A scan without a ready row pulls the one that is made ready. -/
lemma pull_of_advance (hnone : p.ahead = none) (h : p.advance file w = (.ok (), q, w')) :
    cursor.pull ⟨file, some p⟩ w = (.ok q.ahead, ⟨file, some { q with ahead := none }⟩, w') := by
  obtain ⟨pageCount, nextPage, current, _ | row⟩ := q <;>
    simp [Cursor.pull, cursor, next, hasNext, hnone, h]

lemma pull_of_advance_error {e : Error} (hnone : p.ahead = none)
    (h : p.advance file w = (.error e, q, w')) :
    cursor.pull ⟨file, some p⟩ w = (.error (.error e), ⟨file, some q⟩, w') := by
  simp [Cursor.pull, cursor, hasNext, hnone, h]

lemma pull_congr (hp : p.ahead = none) (hq : q.ahead = none)
    (h : p.advance file w = q.advance file w') :
    cursor.pull ⟨file, some p⟩ w = cursor.pull ⟨file, some q⟩ w' := by
  rcases hadvance : q.advance file w' with ⟨e | ⟨⟩, q', w''⟩ <;> rw [hadvance] at h
  · rw [pull_of_advance_error hp h, pull_of_advance_error hq hadvance]
  · rw [pull_of_advance hp h, pull_of_advance hq hadvance]

end FileScan

/-- A pull on the open scan of a table is one on the scan of its file. -/
lemma TableScan.pull_some (t : TableScan) {scan scan' : FileScan} {w w' : W}
    {answer : Except Failure (Option Row)} (h : FileScan.cursor.pull scan w = (answer, scan', w')) :
    t.cursor.pull (some scan) w = (answer, some scan', w') := by
  rcases hask : FileScan.hasNext scan w with ⟨e | _ | _, scan₁, w₁⟩ <;>
    simp only [Cursor.pull, FileScan.cursor, cursor, forward, hask] at h ⊢
  · cases h
    rfl
  · cases h
    rfl
  · rcases htake : FileScan.next scan₁ w₁ with ⟨e | row, scan₂, w₂⟩ <;>
      simp only [htake] at h ⊢ <;> cases h <;> rfl

namespace Source

variable {S : Source W} {file : HeapFile} {R : Multiset (Handle Page)}

/-- The course of a page of a file, while others hold certain pages. -/
def pageCourse (S : Source W) (file : HeapFile) (Q : Finset PageId) (n : ℕ) : Course :=
  match S.page Q ⟨file.id, UInt32.ofNat n⟩ with
  | .error e => [.error (.error e)]
  | .ok content => Course.ofRows {⟨file.id, UInt32.ofNat n⟩} content.rows

/-- The course of a scan that has no row ready: the rows that are left of the page that is held, and
the pages to come. -/
def scanCourse (S : Source W) (file : HeapFile) (Q : Finset PageId) (p : ScanProgress) : Course :=
  (p.current.map fun (h, rows) => Course.ofRows {h.content.id} rows).getD [] ++
    (List.range' p.nextPage (p.pageCount - p.nextPage)).flatMap (S.pageCourse file Q)

/-- A state of a scan that has no row ready, with its course. -/
def ScanAt (S : Source W) (file : HeapFile) (Q : Finset PageId) (course : Course)
    (s : FileScan) : Prop :=
  ∃ p, s = ⟨file, some p⟩ ∧ p.ahead = none ∧ course = S.scanCourse file Q p

lemma scanCourse_of_row {p : ScanProgress} {h : Handle Page} {row : Row} {rest : List Row}
    (hcurrent : p.current = some (h, row :: rest)) (Q : Finset PageId) :
    S.scanCourse file Q p = .ok (row, {h.content.id}) ::
      S.scanCourse file Q { p with current := some (h, rest) } := by
  rw [scanCourse, hcurrent]
  rfl

lemma scanCourse_of_usedUp {p : ScanProgress} (hused : p.UsedUp) (Q : Finset PageId) :
    S.scanCourse file Q p =
      (List.range' p.nextPage (p.pageCount - p.nextPage)).flatMap (S.pageCourse file Q) := by
  rcases hcurrent : p.current with _ | ⟨h, _ | ⟨row, rest⟩⟩
  · rw [scanCourse, hcurrent]
    rfl
  · rw [scanCourse, hcurrent]
    rfl
  · exact absurd hcurrent (hused h row rest)

lemma scanCourse_of_page {p : ScanProgress} (hused : p.UsedUp) (hlt : p.nextPage < p.pageCount)
    (Q : Finset PageId) :
    S.scanCourse file Q p = S.pageCourse file Q p.nextPage ++
      S.scanCourse file Q { p with nextPage := p.nextPage + 1, current := none } := by
  have hcount : p.pageCount - p.nextPage = (p.pageCount - (p.nextPage + 1)) + 1 := by omega
  rw [scanCourse_of_usedUp hused, hcount, List.range'_succ, List.flatMap_cons]
  rfl

lemma scanCourse_of_end {p : ScanProgress} (hused : p.UsedUp) (hend : ¬ p.nextPage < p.pageCount)
    (Q : Finset PageId) : S.scanCourse file Q p = [] := by
  have hcount : p.pageCount - p.nextPage = 0 := by omega
  rw [scanCourse_of_usedUp hused, hcount]
  rfl

/-- What a scan lets go of, it holds no longer. -/
lemma letGo_scan {p : ScanProgress} {w : W}
    (hw : S.Good (Footprint.file.held ⟨file, some p⟩ + R) w) : S.Good R (p.letGo w) := by
  rcases hcurrent : p.current with _ | ⟨h, rows⟩ <;>
    simp only [Footprint.file, FileScan.handle?, ScanProgress.handle?, hcurrent, Option.map_none,
      Option.map_some, Option.bind_some, Option.toList_none, Option.toList_some,
      Multiset.coe_nil, Multiset.coe_singleton, Multiset.zero_add, Multiset.singleton_add] at hw <;>
    simp only [ScanProgress.letGo, hcurrent]
  · exact hw
  · exact S.release hw

/-- A scan of a file pulls what its course says.  By induction on the pages to come, since a page
without rows is passed over. -/
lemma gives_scan (hserves : S.Serves file.id) (hfile : S.heapFile file.id = .ok file)
    {p : ScanProgress} {w : W} (hnone : p.ahead = none)
    (hw : S.Good (Footprint.file.held ⟨file, some p⟩ + R) w) :
    S.Gives .file (S.ScanAt file (pagesOf R)) R (S.scanCourse file (pagesOf R) p)
      (FileScan.cursor.pull ⟨file, some p⟩ w) := by
  fun_induction ScanProgress.advance file p w with
  | case1 p w h row rest hcurrent =>
    rw [FileScan.pull_of_advance hnone (ScanProgress.advance_of_row hcurrent),
      scanCourse_of_row hcurrent]
    refine .row ⟨_, rfl, rfl, ?_⟩ rfl ?_
    · simp only [hnone]
    · simpa [Footprint.file, FileScan.handle?, ScanProgress.handle?, hcurrent] using hw
  | case2 p w w₁ hlt e w₂ hrequest hused =>
    rw [FileScan.pull_of_advance_error hnone (ScanProgress.advance_of_refused hused hlt hrequest),
      scanCourse_of_page hused hlt, pageCourse]
    rcases hpage : S.page (pagesOf R) ⟨file.id, UInt32.ofNat p.nextPage⟩ with e' | content
    · obtain ⟨w', hrefused⟩ := S.refuse (letGo_scan hw) hserves hfile hpage
      cases hrequest.symm.trans hrefused
      exact .failed
    · obtain ⟨h, w', hgranted, -⟩ := S.grant (letGo_scan hw) hserves hfile hpage
      cases hrequest.symm.trans hgranted
  | case3 p w w₁ hlt h w₂ hrequest hused ih =>
    rw [FileScan.pull_congr (q := { p with
        nextPage := p.nextPage + 1, current := some (h, h.content.rows) }) hnone hnone
      (ScanProgress.advance_of_granted hused hlt hrequest),
      scanCourse_of_page hused hlt, pageCourse]
    rcases hpage : S.page (pagesOf R) ⟨file.id, UInt32.ofNat p.nextPage⟩ with e' | content
    · obtain ⟨w', hrefused⟩ := S.refuse (letGo_scan hw) hserves hfile hpage
      cases hrequest.symm.trans hrefused
    · obtain ⟨h', w', hgranted, rfl, hid, hw'⟩ := S.grant (letGo_scan hw) hserves hfile hpage
      cases hrequest.symm.trans hgranted
      rw [← hid]
      exact ih hnone hw'
  | case4 p w w₁ hlt hused =>
    rw [FileScan.pull_of_advance hnone (ScanProgress.advance_of_end hused hlt),
      scanCourse_of_end hused hlt, hnone]
    let ended : ScanProgress := { p with current := none, ahead := none }
    have hused' : ended.UsedUp := fun _ _ _ h => by cases h
    exact .done ⟨ended, rfl, rfl, (scanCourse_of_end hused' hlt _).symm⟩ rfl (letGo_scan hw)

/-- **The scan of a table follows the pages of its file.** -/
theorem follows_table (hserves : S.Serves file.id) (hfile : S.heapFile file.id = .ok file)
    {count : ℕ} (hcount : S.pageCount file = .ok count) (t : TableScan) :
    S.Follows .table t.cursor.pull t.cursor.rewind
      (fun Q => S.scanCourse file Q (.ofPages count))
      fun Q course s => ∃ scan, s = some scan ∧ S.ScanAt file Q course scan where
  pull {R course s w} hs hw := by
    obtain ⟨scan, rfl, p, rfl, hnone, hcourse⟩ := hs
    have hgives := S.gives_scan hserves hfile hnone hw
    rw [← hcourse] at hgives
    rcases heq : FileScan.cursor.pull ⟨file, some p⟩ w with ⟨answer, scan', w'⟩
    rw [heq] at hgives
    rw [t.pull_some heq]
    cases hgives with
    | done hs' hheld hw' => exact .done ⟨scan', rfl, hs'⟩ hheld hw'
    | failed => exact .failed
    | row hs' hheld hw' => exact .row ⟨scan', rfl, hs'⟩ hheld hw'
  rewind {Q R course s w} hs hw := by
    obtain ⟨scan, rfl, p, rfl, hnone, rfl⟩ := hs
    have hscan : S.Good (Footprint.file.held ⟨file, some p⟩ + R) w := hw
    have hfree : S.Good R (p.letGo w) := letGo_scan hscan
    have hstart :=
      FileScan.start_of_ok (s := ⟨file, none⟩) ((S.pageCount_eq hfree file).trans hcount)
    refine ⟨some ⟨file, some (.ofPages count)⟩, p.letGo w, ?_, rfl, hfree,
      fun Q => ⟨_, rfl, _, rfl, rfl, rfl⟩⟩
    simp only [TableScan.cursor, TableScan.forward, FileScan.rewind, FileScan.close, FileScan.letGo]
    rw [hstart]
    rfl

end Source

end RowStore
