import RowStore.Proofs.Query.Grouping
import RowStore.Proofs.Query.Service

/-!
# What the operators play

Each operator is taken by itself here.  From what its children play follows what its feed produces,
and from what a feed produces follows what the cursor with one row ahead plays
(`Service.Feeds.plays`).  In every case the relation between states and lists is the point: for a
filter the list is what the test leaves of the list of the child; for a join it is made of the pairs
of the left row in hand with what is left on the right, followed by the pairs of the left rows to
come with all rows of the right (`Join.At`).

Closing is not part of playing a list.  A cursor that is closed gives handles back, so all that is
said of it is that the world stays in order (`Service.Tidies`).
-/

namespace RowStore

variable {W σ τ α : Type} [Storage W] {v : Service W}

namespace Footprint

/-- The footprint of states that hold nothing. -/
def nothing (σ : Type) : Footprint σ := ⟨0, fun _ => 0, fun _ => Nat.le_refl _⟩

/-- A cursor over a feed holds what the feed holds. -/
def lookahead (F : Footprint σ) : Footprint (Lookahead σ) :=
  ⟨F.need, fun s => F.held s.feed, fun s => F.card_held s.feed⟩

/-- A join holds what its children hold. -/
def join (F : Footprint σ) (G : Footprint τ) : Footprint (JoinState σ τ) where
  need := F.need + G.need
  held s := F.held s.left + G.held s.right
  card_held s := by
    rw [Multiset.card_add]
    exact Nat.add_le_add (F.card_held s.left) (G.card_held s.right)

/-- An aggregation holds what its child holds. -/
def aggregation (F : Footprint σ) : Footprint (AggregationState σ) :=
  ⟨F.need, fun s => F.held s.child, fun s => F.card_held s.child⟩

end Footprint

/-- A way to close that keeps the world in order. -/
def Service.Tidies (v : Service W) (F : Footprint σ) (close : σ → W → σ × W) : Prop :=
  ∀ s R w, v.Good (F.held s + R) w → ∃ s' w', close s w = (s', w') ∧ v.Good (F.held s' + R) w'

/-! ## One row ahead -/

/-- What is left of the answers in a state of a cursor over a feed. -/
def Lookahead.At (At : List Answer → σ → Prop) (answers : List Answer) (s : Lookahead σ) : Prop :=
  s.isOpen = true ∧ (s.ahead = none ∧ At answers s.feed ∨
    ∃ row rest, s.ahead = some row ∧ answers = .ok row :: rest ∧ At rest s.feed)

namespace Service

variable {F : Footprint σ} {f : Feed W σ} {all : List Answer} {At : List Answer → σ → Prop}

/-- Asking a cursor over a feed for a row either finds one ahead or produces one. -/
lemma Feeds.hasNext (hf : v.Feeds F f all At) {answers : List Answer} {s : Lookahead σ}
    (hs : Lookahead.At At answers s) :
    v.Runs F.lookahead (Lookahead.hasNext f) s fun answer s' =>
      v.Refusal answer ∧ Lookahead.At At answers s' ∨
        answer = (Answers.ask answers).1 ∧ Lookahead.At At (Answers.ask answers).2 s' ∧
          ∀ row rest, answers = .ok row :: rest →
            s'.isOpen = true ∧ s'.ahead = some row ∧ At rest s'.feed := by
  intro R w hR hw
  obtain ⟨feed, ahead, isOpen⟩ := s
  obtain ⟨rfl, ⟨rfl, hs⟩ | ⟨row, rest, rfl, rfl, hs⟩⟩ := hs
  · obtain ⟨answer, feed', w', heq, ⟨rest, hpulls, hs'⟩, hw'⟩ := hf.fetch hs R w hR hw
    have hask : Lookahead.hasNext f ⟨feed, none, true⟩ w =
        (answer.map Option.isSome, ⟨feed', answer.toOption.join, true⟩, w') := by
      simp only [Lookahead.hasNext, heq]
      rcases answer with e | _ | row <;> rfl
    refine ⟨_, _, w', hask, ?_, hw'⟩
    rcases hpulls with ⟨⟨e, he, rfl⟩, rfl⟩ | hpop
    · exact .inl ⟨⟨e, he, rfl⟩, rfl, .inl ⟨rfl, hs'⟩⟩
    · refine .inr ?_
      rcases answers with _ | ⟨e | row, tail⟩ <;> obtain ⟨rfl, rfl⟩ := Prod.mk.inj hpop
      · exact ⟨rfl, ⟨rfl, .inl ⟨rfl, hs'⟩⟩, fun _ _ h => by cases h⟩
      · exact ⟨rfl, ⟨rfl, .inl ⟨rfl, hs'⟩⟩, fun _ _ h => by cases h⟩
      · refine ⟨rfl, ⟨rfl, .inr ⟨row, rest, rfl, rfl, hs'⟩⟩, fun _ _ h => ?_⟩
        obtain ⟨hrow, rfl⟩ := List.cons.inj h
        cases hrow
        exact ⟨rfl, rfl, hs'⟩
  · refine ⟨.ok true, ⟨feed, some row, true⟩, w, rfl, .inr ⟨rfl, ?_, fun _ _ h => ?_⟩, hw⟩
    · exact ⟨rfl, .inr ⟨row, rest, rfl, rfl, hs⟩⟩
    · obtain ⟨hrow, rfl⟩ := List.cons.inj h
      cases hrow
      exact ⟨rfl, rfl, hs⟩

/-- **A cursor over a feed plays what the feed produces.** -/
theorem Feeds.plays (hf : v.Feeds F f all At) :
    v.Plays F.lookahead (Lookahead.cursor f) all (Lookahead.At At) where
  hasNext hs := by
    refine (hf.hasNext hs).mono ?_
    rintro answer s' (hrefused | ⟨hanswer, hs', hready⟩)
    · exact .inl hrefused
    · refine .inr ⟨hanswer, hs', ?_⟩
      rintro row rest rfl w
      obtain ⟨hopen, hahead, hrest⟩ := hready row rest rfl
      refine ⟨{ s' with ahead := none }, ?_, rfl, hopen, .inl ⟨rfl, hrest⟩⟩
      simp only [Lookahead.cursor, Lookahead.next, Lookahead.hasNext, hopen, hahead, if_true]
  next {answers s} hs := by
    intro R w hR hw
    obtain ⟨answer, s', w', heq, hpost, hw'⟩ := hf.hasNext hs R w hR hw
    have hopen : s.isOpen = true := hs.1
    rcases hpost with ⟨⟨e, he, rfl⟩, hs'⟩ | ⟨rfl, hs', hready⟩
    · refine ⟨.error (.error e), s', w', ?_, .inl ⟨⟨e, he, rfl⟩, hs'⟩, hw'⟩
      simp only [Lookahead.cursor, Lookahead.next, hopen, heq, if_true]
    · rcases answers with _ | ⟨e | row, rest⟩
      · have hask : Lookahead.hasNext f s w = (.ok false, s', w') := heq
        have hahead : s'.ahead = none := by
          obtain ⟨-, ⟨hnone, -⟩ | ⟨row, rest, -, h, -⟩⟩ := hs'
          · exact hnone
          · cases h
        refine ⟨.error exhausted, s', w', ?_, .inr ⟨rfl, hs'⟩, hw'⟩
        simp only [Lookahead.cursor, Lookahead.next, hopen, hask, hahead, if_true]
      · have hask : Lookahead.hasNext f s w = (.error e, s', w') := heq
        refine ⟨.error e, s', w', ?_, .inr ⟨rfl, hs'⟩, hw'⟩
        simp only [Lookahead.cursor, Lookahead.next, hopen, hask, if_true]
      · have hask : Lookahead.hasNext f s w = (.ok true, s', w') := heq
        obtain ⟨hopen', hahead, hrest⟩ := hready row rest rfl
        refine ⟨.ok row, { s' with ahead := none }, w', ?_,
          .inr ⟨rfl, hopen', .inl ⟨rfl, hrest⟩⟩, hw'⟩
        simp only [Lookahead.cursor, Lookahead.next, hopen, hask, hahead, if_true]
  rewind {answers s} hs := by
    intro R w hR hw
    have hopen : s.isOpen = true := hs.1
    -- The feed can be taken back from wherever it is, also from behind the row ahead.
    obtain ⟨left, hleft⟩ : ∃ left, At left s.feed := by
      obtain ⟨-, ⟨-, h⟩ | ⟨-, rest, -, -, h⟩⟩ := hs
      · exact ⟨answers, h⟩
      · exact ⟨rest, h⟩
    obtain ⟨answer, feed', w', heq, ⟨rfl, hs'⟩, hw'⟩ := hf.rewind hleft R w hR hw
    refine ⟨.ok (), ⟨feed', none, true⟩, w', ?_, ⟨rfl, rfl, .inl ⟨rfl, hs'⟩⟩, hw'⟩
    simp only [Lookahead.cursor, Lookahead.rewind, hopen, heq, if_true]

lemma Tidies.lookahead (hf : v.Tidies F f.close) :
    v.Tidies F.lookahead (Lookahead.cursor f).close := by
  rintro ⟨feed, ahead, isOpen⟩ R w hw
  rcases isOpen with _ | _
  · exact ⟨⟨feed, none, false⟩, w, rfl, hw⟩
  · obtain ⟨feed', w', heq, hw'⟩ := hf feed R w hw
    refine ⟨⟨feed', none, false⟩, w', ?_, hw'⟩
    simp only [Lookahead.cursor, Lookahead.close, heq, if_true]

/-! ## Rows in memory -/

omit [Storage W] in
lemma fetch_rows (rows : List Row) (position : ℕ) (w : W) :
    ∃ answer position', RowList.fetch rows position w = (answer, position', w) ∧
      (answer, Answers.ofRows (rows.drop position')) =
        Answers.pop (Answers.ofRows (rows.drop position)) := by
  rcases hrow : rows[position]? with _ | row
  · have hdrop : rows.drop position = [] := List.drop_eq_nil_of_le (by simpa using hrow)
    refine ⟨.ok none, position, ?_, ?_⟩
    · simp only [RowList.fetch, hrow]
    · rw [hdrop]
      rfl
  · obtain ⟨hlt, rfl⟩ := List.getElem?_eq_some_iff.1 hrow
    refine ⟨.ok (some rows[position]), position + 1, ?_, ?_⟩
    · simp only [RowList.fetch, hrow]
    · rw [List.drop_eq_getElem_cons hlt]
      rfl

lemma feeds_rows (rows : List Row) :
    v.Feeds (.nothing ℕ) (RowList.feed rows) (Answers.ofRows rows) fun answers position =>
      answers = Answers.ofRows (rows.drop position) where
  fetch {answers position} hs := by
    intro R w hR hw
    obtain ⟨answer, position', heq, hpop⟩ := fetch_rows rows position w
    exact ⟨answer, position', w, heq, ⟨_, .inr (hs ▸ hpop), rfl⟩, hw⟩
  rewind {answers position} _ := by
    intro R w hR hw
    exact ⟨.ok (), 0, w, rfl, ⟨rfl, rfl⟩, hw⟩

/-! ## Filters -/

lemma Plays.feeds_filter {c : Cursor W σ} (hc : v.Plays F c all At) (fin : c.Finite)
    (test : Row → Except Failure Bool) :
    v.Feeds F (Filter.feed test c fin) (Answers.filter test all) fun answers s =>
      ∃ left, At left s ∧ answers = Answers.filter test left where
  fetch {answers s} hs := by
    obtain ⟨left, hs, rfl⟩ := hs
    refine (hc.find fin test hs).mono ?_
    rintro answer s' ⟨rest, hpulls, hs'⟩
    exact ⟨Answers.filter test rest, hpulls, rest, hs', rfl⟩
  rewind {answers s} hs := by
    obtain ⟨left, hs, rfl⟩ := hs
    refine (hc.rewind hs).mono ?_
    rintro answer s' ⟨hanswer, hs'⟩
    exact ⟨hanswer, all, hs', rfl⟩

/-! ## Joins -/

section

variable {G : Footprint τ}

/-- What a call on the left child does, with what the right one holds set aside. -/
lemma Runs.left {call : Call W σ α} {s : σ} {post : Except Failure α → σ → Prop}
    (h : v.Runs F call s post) (t : τ) {R : Multiset (Handle Page)} {w : W}
    (hR : (F.join G).need + R.card ≤ v.limit) (hw : v.Good (F.held s + G.held t + R) w) :
    ∃ answer s' w', call s w = (answer, s', w') ∧ post answer s' ∧
      v.Good (F.held s' + G.held t + R) w' := by
  have hcard := G.card_held t
  have hframe : F.need + (G.held t + R).card ≤ v.limit := by
    rw [Multiset.card_add]
    simp only [Footprint.join] at hR
    omega
  rw [Multiset.add_assoc] at hw
  obtain ⟨answer, s', w', heq, hpost, hw'⟩ := h _ w hframe hw
  exact ⟨answer, s', w', heq, hpost, by rwa [Multiset.add_assoc]⟩

/-- What a call on the right child does, with what the left one holds set aside. -/
lemma Runs.right {call : Call W τ α} {t : τ} {post : Except Failure α → τ → Prop}
    (h : v.Runs G call t post) (s : σ) {R : Multiset (Handle Page)} {w : W}
    (hR : (F.join G).need + R.card ≤ v.limit) (hw : v.Good (F.held s + G.held t + R) w) :
    ∃ answer t' w', call t w = (answer, t', w') ∧ post answer t' ∧
      v.Good (F.held s + G.held t' + R) w' := by
  have hcard := F.card_held s
  have hframe : G.need + (F.held s + R).card ≤ v.limit := by
    rw [Multiset.card_add]
    simp only [Footprint.join] at hR
    omega
  have hsum : ∀ t, F.held s + G.held t + R = G.held t + (F.held s + R) := by
    intro t
    rw [Multiset.add_comm (F.held s), Multiset.add_assoc]
  rw [hsum] at hw
  obtain ⟨answer, t', w', heq, hpost, hw'⟩ := h _ w hframe hw
  exact ⟨answer, t', w', heq, hpost, by rwa [hsum]⟩

end

end Service

/-- What is left of the answers in a state of a join, given what the states of the children stand
for and all answers on the right. -/
def Join.At (j : Join W σ τ) (AtL : List Answer → σ → Prop) (AtR : List Answer → τ → Prop)
    (allR answers : List Answer) (s : JoinState σ τ) : Prop :=
  ∃ ls, AtL ls s.left ∧
    (s.current = none ∧ AtR allR s.right ∧ answers = Answers.join j.schema j.test ls allR ∨
      ∃ l rs, s.current = some l ∧ AtR rs s.right ∧
        answers = Answers.pair j.schema j.test rs l ++ Answers.join j.schema j.test ls allR)

namespace Service.Plays

variable {F : Footprint σ} {G : Footprint τ} {j : Join W σ τ} {allL allR : List Answer}
  {AtL : List Answer → σ → Prop} {AtR : List Answer → τ → Prop}

/-- A search with a left row in hand, if the join does what it should without one. -/
lemma search (hr : v.Plays G j.right allR AtR) {ls : List Answer}
    (hfetch : ∀ {left right}, AtL ls left → AtR allR right →
      v.Runs (F.join G) j.fetch ⟨left, right, none⟩ fun answer s' => ∃ rest,
        v.Pulls (Answers.join j.schema j.test ls allR) answer rest ∧ j.At AtL AtR allR rest s')
    {rs : List Answer} {left : σ} {right : τ} (hls : AtL ls left) (hrs : AtR rs right) (l : Row) :
    ∀ current, v.Runs (F.join G) (fun s w => j.search l s.left s.right w) ⟨left, right, current⟩
      fun answer s' => ∃ rest,
        v.Pulls (Answers.pair j.schema j.test rs l ++ Answers.join j.schema j.test ls allR)
          answer rest ∧ j.At AtL AtR allR rest s' := by
  intro current R w hR hw
  obtain ⟨answer, right', w', hfind, ⟨rest, hpulls, hrest⟩, hw'⟩ :=
    (hr.find j.rightFinite (j.test l) hrs).right left hR hw
  rcases hpulls with ⟨⟨e, he, rfl⟩, hsame⟩ | hpop
  · refine ⟨.error (.error e), ⟨left, right', some l⟩, w', Join.search_of_error hfind,
      ⟨_, .inl ⟨⟨e, he, rfl⟩, rfl⟩, ls, hls, .inr ⟨l, rest, rfl, hrest, ?_⟩⟩, hw'⟩
    rw [Answers.pair, Answers.pair, hsame]
  · rcases hfilter : Answers.filter (j.test l) rs with _ | ⟨e | r, tail⟩ <;>
      rw [hfilter] at hpop <;> obtain ⟨rfl, htail⟩ := Prod.mk.inj hpop
    · -- Nothing is left on the right: it is taken back, and the next left row is looked for.
      obtain ⟨_, right'', w'', hrewind, ⟨rfl, hall⟩, hw''⟩ := (hr.rewind hrest).right left hR hw'
      obtain ⟨answer, s', w₃, hrun, hpost, hw₃⟩ := hfetch hls hall R w'' hR hw''
      refine ⟨answer, s', w₃, (Join.search_of_none hfind hrewind).trans hrun, ?_, hw₃⟩
      rwa [Answers.pair, hfilter]
    · refine ⟨.error e, ⟨left, right', some l⟩, w', Join.search_of_error hfind, ⟨_, .inr ?_, ls,
        hls, .inr ⟨l, rest, rfl, hrest, rfl⟩⟩, hw'⟩
      rw [Answers.pair, Answers.pair, hfilter, htail]
      rfl
    · refine ⟨_, ⟨left, right', some l⟩, w', Join.search_of_some hfind, ⟨_, .inr ?_, ls,
        hls, .inr ⟨l, rest, rfl, hrest, rfl⟩⟩, hw'⟩
      rw [Answers.pair, Answers.pair, hfilter, htail]
      rfl

/-- What a join does without a left row in hand. -/
lemma fetch_none (hl : v.Plays F j.left allL AtL) (hr : v.Plays G j.right allR AtR)
    {ls : List Answer} {left : σ} {right : τ} (hls : AtL ls left) (hall : AtR allR right) :
    v.Runs (F.join G) j.fetch ⟨left, right, none⟩ fun answer s' => ∃ rest,
      v.Pulls (Answers.join j.schema j.test ls allR) answer rest ∧ j.At AtL AtR allR rest s' := by
  induction ls generalizing left right with
  | nil =>
    intro R w hR hw
    obtain ⟨answer, left', w', hpull, ⟨rest, hpulls, hrest⟩, hw'⟩ :=
      (hl.pull hls).left right hR hw
    rcases hpulls with ⟨⟨e, he, rfl⟩, rfl⟩ | hpop
    · refine ⟨.error (.error e), ⟨left', right, none⟩, w', ?_,
        ⟨_, .inl ⟨⟨e, he, rfl⟩, rfl⟩, _, hrest, .inl ⟨rfl, hall, rfl⟩⟩, hw'⟩
      simp only [Join.fetch, hpull]
    · obtain ⟨rfl, rfl⟩ := Prod.mk.inj hpop
      refine ⟨.ok none, ⟨left', right, none⟩, w', ?_,
        ⟨_, .inr rfl, _, hrest, .inl ⟨rfl, hall, rfl⟩⟩, hw'⟩
      simp only [Join.fetch, hpull]
  | cons head tail ih =>
    intro R w hR hw
    obtain ⟨answer, left', w', hpull, ⟨rest, hpulls, hrest⟩, hw'⟩ :=
      (hl.pull hls).left right hR hw
    rcases hpulls with ⟨⟨e, he, rfl⟩, rfl⟩ | hpop
    · refine ⟨.error (.error e), ⟨left', right, none⟩, w', ?_,
        ⟨_, .inl ⟨⟨e, he, rfl⟩, rfl⟩, _, hrest, .inl ⟨rfl, hall, rfl⟩⟩, hw'⟩
      simp only [Join.fetch, hpull]
    · obtain ⟨rfl, rfl⟩ := Prod.mk.inj hpop
      rcases head with e | l
      · have herror : j.left.pull left w = (.error e, left', w') := hpull
        refine ⟨.error e, ⟨left', right, none⟩, w', ?_,
          ⟨_, .inr rfl, _, hrest, .inl ⟨rfl, hall, rfl⟩⟩, hw'⟩
        simp only [Join.fetch, herror]
      · have hrow : j.left.pull left w = (.ok (some l), left', w') := hpull
        obtain ⟨answer, s', w'', hrun, hpost, hw''⟩ := hr.search ih hrest hall l none R w' hR hw'
        refine ⟨answer, s', w'', ?_, hpost, hw''⟩
        rw [← hrun]
        simp only [Join.fetch, hrow]

/-- **A join feeds the pairs of left and right rows that match.** -/
theorem feeds_join (hl : v.Plays F j.left allL AtL) (hr : v.Plays G j.right allR AtR) :
    v.Feeds (F.join G) j.feed (Answers.join j.schema j.test allL allR) (j.At AtL AtR allR) where
  fetch {answers s} hs := by
    obtain ⟨left, right, current⟩ := s
    obtain ⟨ls, hls, ⟨rfl, hall, rfl⟩ | ⟨l, rs, rfl, hrs, rfl⟩⟩ := hs
    · exact hl.fetch_none hr hls hall
    · exact hr.search (fun h h' => hl.fetch_none hr h h') hls hrs l (some l)
  rewind {answers s} hs := by
    intro R w hR hw
    have hright : ∃ rs, AtR rs s.right := by
      obtain ⟨ls, -, ⟨-, hall, -⟩ | ⟨l, rs, -, hrs, -⟩⟩ := hs
      · exact ⟨allR, hall⟩
      · exact ⟨rs, hrs⟩
    obtain ⟨ls, hls, -⟩ := hs
    obtain ⟨rs, hrs⟩ := hright
    obtain ⟨_, left', w', hleft, ⟨rfl, hallL⟩, hw'⟩ := (hl.rewind hls).left s.right hR hw
    obtain ⟨_, right', w'', hright, ⟨rfl, hallR⟩, hw''⟩ := (hr.rewind hrs).right left' hR hw'
    refine ⟨.ok (), ⟨left', right', none⟩, w'', ?_,
      ⟨rfl, allL, hallL, .inl ⟨rfl, hallR, rfl⟩⟩, hw''⟩
    simp only [Join.feed, Join.rewind, hleft, hright]

end Service.Plays

lemma Service.Tidies.join {F : Footprint σ} {G : Footprint τ} {j : Join W σ τ}
    (hl : v.Tidies F j.left.close) (hr : v.Tidies G j.right.close) :
    v.Tidies (F.join G) j.feed.close := by
  rintro ⟨left, right, current⟩ R w hw
  have hleft : v.Good (F.held left + (G.held right + R)) w := by
    rwa [← Multiset.add_assoc]
  obtain ⟨left', w', heq, hw'⟩ := hl left _ w hleft
  have hright : v.Good (G.held right + (F.held left' + R)) w' := by
    rwa [← Multiset.add_assoc, Multiset.add_comm (G.held right), Multiset.add_assoc]
  obtain ⟨right', w'', heq', hw''⟩ := hr right _ w' hright
  refine ⟨⟨left', right', none⟩, w'', ?_, ?_⟩
  · simp only [Join.feed, Join.close, heq, heq']
  · show v.Good (F.held left' + G.held right' + R) w''
    rwa [Multiset.add_comm (F.held left'), Multiset.add_assoc]

/-! ## Aggregations -/

namespace Service

variable {F : Footprint σ}

lemma feeds_aggregation (a : Aggregation) (order : Arrangement W) (child : Cursor W σ)
    (fin : child.Finite) (rows : List Row) :
    v.Feeds F.aggregation (a.feed order child fin) (Answers.ofRows rows) fun answers s =>
      ∃ position, s.results = some (rows, position) ∧
        answers = Answers.ofRows (rows.drop position) where
  fetch {answers s} hs := by
    intro R w hR hw
    obtain ⟨position, hresults, rfl⟩ := hs
    obtain ⟨answer, position', heq, hpop⟩ := fetch_rows rows position w
    refine ⟨answer, { s with results := some (rows, position') }, w, ?_,
      ⟨_, .inr hpop, position', rfl, rfl⟩, hw⟩
    simp only [Aggregation.feed, Aggregation.fetch, hresults, heq]
  rewind {answers s} hs := by
    intro R w hR hw
    obtain ⟨position, hresults, rfl⟩ := hs
    refine ⟨.ok (), { s with results := some (rows, 0) }, w, ?_, ⟨rfl, 0, rfl, rfl⟩, hw⟩
    simp only [Aggregation.feed, Aggregation.rewind, hresults, Option.map_some]

lemma Tidies.aggregation {a : Aggregation} {order : Arrangement W} {child : Cursor W σ}
    {fin : child.Finite} (hchild : v.Tidies F child.close) :
    v.Tidies F.aggregation (a.feed order child fin).close := by
  intro s R w hw
  obtain ⟨c, w', heq, hw'⟩ := hchild s.child R w hw
  refine ⟨⟨c, none⟩, w', ?_, hw'⟩
  simp only [Aggregation.feed, Aggregation.close, heq]

/-! ## Opening -/

variable (v) in
/-- How opening something may end that has one of some results.  If it succeeds, it is ready for the
answers that are the result. -/
inductive Concludes (Possible : Except Failure (List Answer) → Prop)
    (Ready : List Answer → Prop) : Except Failure Unit → Prop
  | refused {e : Error} (he : v.Refuses e) : Concludes Possible Ready (.error (.error e))
  | failed {e : Failure} (he : Possible (.error e)) : Concludes Possible Ready (.error e)
  | opened {answers : List Answer} (hpossible : Possible (.ok answers)) (hready : Ready answers) :
    Concludes Possible Ready (.ok ())

/-- Two services of one catalog and one disk, which may differ in what they refuse. -/
def Kin (v v' : Service W) : Prop := v'.catalog = v.catalog ∧ v'.disk = v.disk

variable (v) in
/-- Opening a cursor has one of some results, and the cursor plays the answers under every service
of the same catalog and disk, with one relation between states and lists for all of them. -/
def OpensAlike (F : Footprint σ) (c : Cursor W σ)
    (Possible : Except Failure (List Answer) → Prop) : Prop :=
  ∀ s, v.Runs F c.start s fun answer s' =>
    v.Concludes Possible (fun answers => ∃ At, (∀ v', v.Kin v' → v'.Plays F c answers At) ∧
      At answers s') answer

variable (v) in
/-- Opening a feed has one of some results, and the feed produces the answers under every service
of the same catalog and disk. -/
def OpensFeedAlike (F : Footprint σ) (f : Feed W σ)
    (Possible : Except Failure (List Answer) → Prop) : Prop :=
  ∀ s, v.Runs F f.start s fun answer s' =>
    v.Concludes Possible (fun answers => ∃ At, (∀ v', v.Kin v' → v'.Feeds F f answers At) ∧
      At answers s') answer

lemma OpensAlike.mono {c : Cursor W σ} {Possible Possible' : Except Failure (List Answer) → Prop}
    (hc : v.OpensAlike F c Possible) (h : ∀ result, Possible result → Possible' result) :
    v.OpensAlike F c Possible' := by
  intro s
  refine (hc s).mono ?_
  rintro _ s' (he | he | ⟨hpossible, hready⟩)
  · exact .refused he
  · exact .failed (h _ he)
  · exact .opened (h _ hpossible) hready

/-- A cursor opens as its feed does.  If the feed fails to get ready, it is given back, which keeps
the world in order but says nothing about the feed. -/
lemma OpensFeedAlike.opensAlike {f : Feed W σ} {Possible : Except Failure (List Answer) → Prop}
    (hf : v.OpensFeedAlike F f Possible) (htidy : v.Tidies F f.close) :
    v.OpensAlike F.lookahead (Lookahead.cursor f) Possible := by
  intro s R w hR hw
  obtain ⟨answer, feed, w', heq, hpost, hw'⟩ := hf s.feed R w hR hw
  rcases answer with e | ⟨⟩
  · obtain ⟨feed', w'', hclose, hw''⟩ := htidy feed R w' hw'
    refine ⟨.error e, ⟨feed', none, false⟩, w'', ?_, ?_, hw''⟩
    · simp only [Lookahead.cursor, Lookahead.start, heq, hclose]
    · rcases hpost with he | he
      · exact .refused he
      · exact .failed he
  · refine ⟨.ok (), ⟨feed, none, true⟩, w', ?_, ?_, hw'⟩
    · simp only [Lookahead.cursor, Lookahead.start, heq]
    · rcases hpost with _ | _ | ⟨hpossible, At, hAt, hs⟩
      exact .opened hpossible
        ⟨Lookahead.At At, fun v' hv' => (hAt v' hv').plays, rfl, .inl ⟨rfl, hs⟩⟩

lemma opensFeedAlike_rows (rows : List Row) :
    v.OpensFeedAlike (.nothing ℕ) (RowList.feed rows) (· = .ok (Answers.ofRows rows)) := by
  intro s R w hR hw
  exact ⟨.ok (), 0, w, rfl, .opened rfl ⟨_, fun _ _ => feeds_rows rows, rfl⟩, hw⟩

lemma OpensAlike.filter {c : Cursor W σ} {Possible : Except Failure (List Answer) → Prop}
    (hc : v.OpensAlike F c Possible) (fin : c.Finite) (test : Row → Except Failure Bool) :
    v.OpensFeedAlike F (Filter.feed test c fin) fun result =>
      ∃ below, Possible below ∧ result = below.map (Answers.filter test) := by
  intro s
  refine (hc s).mono ?_
  rintro _ s' (he | he | ⟨hpossible, At, hAt, hs⟩)
  · exact .refused he
  · exact .failed ⟨_, he, rfl⟩
  · exact .opened ⟨_, hpossible, rfl⟩
      ⟨_, fun v' hv' => (hAt v' hv').feeds_filter fin test, _, hs, rfl⟩

/-- Opening a join opens its left child and then its right one. -/
lemma OpensAlike.join {G : Footprint τ} {j : Join W σ τ}
    {PossibleL PossibleR : Except Failure (List Answer) → Prop}
    (hl : v.OpensAlike F j.left PossibleL) (hr : v.OpensAlike G j.right PossibleR) :
    v.OpensFeedAlike (F.join G) j.feed fun result =>
      (∃ e, PossibleL (.error e) ∧ result = .error e) ∨
        ∃ answers below, PossibleL (.ok answers) ∧ PossibleR below ∧
          result = below.map (Answers.join j.schema j.test answers) := by
  rintro ⟨left, right, current⟩ R w hR hw
  obtain ⟨answer, left', w', hleft, hpost, hw'⟩ := (hl left).left right hR hw
  rcases hpost with he | he | ⟨hpossible, AtL, hAtL, hsL⟩
  · refine ⟨_, ⟨left', right, current⟩, w', ?_, .refused he, hw'⟩
    simp only [Join.feed, Join.start, hleft]
  · refine ⟨_, ⟨left', right, current⟩, w', ?_, .failed (.inl ⟨_, he, rfl⟩), hw'⟩
    simp only [Join.feed, Join.start, hleft]
  · obtain ⟨answer, right', w'', hright, hpost, hw''⟩ := (hr right).right left' hR hw'
    rcases hpost with he | he | ⟨hpossible', AtR, hAtR, hsR⟩
    · refine ⟨_, ⟨left', right', current⟩, w'', ?_, .refused he, hw''⟩
      simp only [Join.feed, Join.start, hleft, hright]
    · refine ⟨_, ⟨left', right', current⟩, w'', ?_,
        .failed (.inr ⟨_, _, hpossible, he, rfl⟩), hw''⟩
      simp only [Join.feed, Join.start, hleft, hright]
    · refine ⟨.ok (), ⟨left', right', none⟩, w'', ?_,
        .opened (.inr ⟨_, _, hpossible, hpossible', rfl⟩)
          ⟨_, fun v' hv' => (hAtL v' hv').feeds_join (hAtR v' hv'), _, hsL,
            .inl ⟨rfl, hsR, rfl⟩⟩, hw''⟩
      simp only [Join.feed, Join.start, hleft, hright]

/-- Opening an aggregation opens its child and summarizes what the child plays. -/
lemma OpensAlike.aggregation {c : Cursor W σ} {Possible : Except Failure (List Answer) → Prop}
    (hc : v.OpensAlike F c Possible) (fin : c.Finite) (a : Aggregation) (order : Arrangement W) :
    v.OpensFeedAlike F.aggregation (a.feed order c fin) fun result => ∃ below, Possible below ∧
      ((∃ list arranged : List Row, below.bind a.summarize = .ok list ∧ arranged.Perm list ∧
          result = .ok (Answers.ofRows arranged)) ∨
        ∃ e, below.bind a.summarize = .error e ∧ result = .error e) := by
  rintro ⟨child, results⟩ R w hR hw
  obtain ⟨answer, child₁, w₁, hstart, hpost, hw₁⟩ := hc child R w hR hw
  rcases hpost with he | he | ⟨hpossible, At, hAt, hs⟩
  · refine ⟨_, ⟨child₁, results⟩, w₁, ?_, .refused he, hw₁⟩
    simp only [Aggregation.feed, Aggregation.start, hstart]
  · refine ⟨_, ⟨child₁, results⟩, w₁, ?_, .failed ⟨_, he, .inr ⟨_, rfl, rfl⟩⟩, hw₁⟩
    simp only [Aggregation.feed, Aggregation.start, hstart]
  · next answers =>
    rcases hinitial : a.aggregator with e | initial
    · refine ⟨.error (.error e), ⟨child₁, results⟩, w₁, ?_,
        .failed ⟨_, hpossible, .inr ⟨_, ?_, rfl⟩⟩, hw₁⟩
      · simp only [Aggregation.feed, Aggregation.start, hstart, hinitial]
      · show a.summarize answers = _
        rw [Aggregation.summarize, hinitial]
        rfl
    · obtain ⟨answer, child₂, w₂, hfold, hpost, hw₂⟩ :=
        (hAt v ⟨rfl, rfl⟩).fold fin Aggregator.merge initial hs R w₁ hR hw₁
      have hsummary := a.results_fold hinitial answers
      rcases hpost with ⟨e, he, rfl⟩ | hanswer
      · refine ⟨_, ⟨child₂, results⟩, w₂, ?_, .refused he, hw₂⟩
        simp only [Aggregation.feed, Aggregation.start, hstart, hinitial, hfold]
      · rw [← hanswer] at hsummary
        rcases answer with e | final
        · refine ⟨.error e, ⟨child₂, results⟩, w₂, ?_,
            .failed ⟨_, hpossible, .inr ⟨e, hsummary.symm, rfl⟩⟩, hw₂⟩
          simp only [Aggregation.feed, Aggregation.start, hstart, hinitial, hfold]
        · rcases hlist : final.results with e | list
          · refine ⟨.error e, ⟨child₂, results⟩, w₂, ?_,
              .failed ⟨_, hpossible, .inr ⟨e, hsummary.symm.trans hlist, rfl⟩⟩, hw₂⟩
            simp only [Aggregation.feed, Aggregation.start, hstart, hinitial, hfold, hlist]
          · refine ⟨.ok (), ⟨child₂, some (order.apply w₂ list, 0)⟩, w₂, ?_,
              .opened ⟨_, hpossible, .inl ⟨list, order.apply w₂ list, hsummary.symm.trans hlist,
                order.perm w₂ list, rfl⟩⟩
                ⟨_, fun _ _ => feeds_aggregation a order c fin _, 0, rfl, rfl⟩, hw₂⟩
            simp only [Aggregation.feed, Aggregation.start, hstart, hinitial, hfold, hlist]

end Service

end RowStore
