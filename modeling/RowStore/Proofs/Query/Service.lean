import Mathlib.Data.Multiset.AddSub
import RowStore.Query.Evaluation

/-!
# Calls on a world that serves pages

What a cursor does depends on the world in which it is called.  A `Service` is a view of a world
under which it answers the questions of scans as a catalog and a disk say, except that it may refuse
a request.  It only promises this as long as fewer than `limit` handles are out; and since a world
can have other clients, it keeps account of the handles by a predicate on multisets of them,
`Good H w`, that says that the world `w` is in order with the handles `H` out.

`Service.Runs` is the statement about a call that goes with it: from a world that is in order with
the handles that the state holds and any others, the call leads to an answer and a state of which a
given property holds, and to a world that is in order with the handles that the new state holds and
the same others.

A consumer of a cursor asks whether there is a row and takes rows, in any order and as often as it
likes (`Cursor.replies`), and of a list of answers the same can be asked (`Answers.replies`).  A
cursor *plays* a list of answers (`Plays`) if it behaves as the list would: its states stand for
what is left of the list, and its calls answer as `Answers.ask` and `Answers.take` do.  The loops
over a cursor are computed here from what it plays (`Plays.find` and `Plays.fold`).
-/

namespace RowStore

/-! ## Conversations -/

section

variable {W σ : Type}

namespace Cursor

/-- A call that a consumer makes on an open cursor. -/
inductive Ask where
  | hasNext
  | next

/-- What comes back. -/
inductive Reply where
  | hasNext (answer : Except Failure Bool)
  | next (answer : Except Failure Row)

/-- The replies of a cursor to several calls, and the state and the world after them. -/
def replies (c : Cursor W σ) : List Ask → σ → W → List Reply × σ × W
  | [], s, w => ([], s, w)
  | .hasNext :: rest, s, w =>
    let (answer, s, w) := c.hasNext s w
    let (answers, s, w) := c.replies rest s w
    (.hasNext answer :: answers, s, w)
  | .next :: rest, s, w =>
    let (answer, s, w) := c.next s w
    let (answers, s, w) := c.replies rest s w
    (.next answer :: answers, s, w)

end Cursor

/-- The replies of a list of answers to several calls, and what is left of it after them. -/
def Answers.replies : List Cursor.Ask → List Answer → List Cursor.Reply × List Answer
  | [], answers => ([], answers)
  | .hasNext :: rest, answers =>
    let (later, left) := Answers.replies rest (ask answers).2
    (.hasNext (ask answers).1 :: later, left)
  | .next :: rest, answers =>
    let (later, left) := Answers.replies rest (take answers).2
    (.next (take answers).1 :: later, left)

end

/-! ## Services -/

/-- A view of a world as one that serves the pages of the tables of a catalog. -/
structure Service (W : Type) [Storage W] where
  catalog : Catalog
  disk : Disk
  /-- The number of handles that may be out. -/
  limit : ℕ
  /-- With which errors requests may be refused. -/
  Refuses : Error → Prop
  /-- The world is in order, with these handles out. -/
  Good : Multiset (Handle Page) → W → Prop
  id_eq : ∀ {table file}, catalog.heapFile table = .ok file → file.id = table
  heapFile_eq : ∀ {H w}, Good H w → ∀ table, Storage.heapFile table w = catalog.heapFile table
  pageCount_eq : ∀ {H w}, Good H w → ∀ file, catalog.heapFile file.id = .ok file →
    Storage.pageCount file w = file.pageCount disk
  request : ∀ {H w}, Good H w → H.card < limit → ∀ {file page content},
    catalog.heapFile page.table = .ok file → file.readPage disk page = .ok content →
    (∃ e w', Storage.request page .readOnly w = (.error e, w') ∧ Refuses e ∧ Good H w') ∨
      ∃ h w', Storage.request page .readOnly w = (.ok h, w') ∧ h.content = content ∧
        Good (h ::ₘ H) w'
  release : ∀ {H h w}, Good (h ::ₘ H) w → Good H (Storage.release h w)

/-- The handles that the states of a cursor hold, and a bound of their number. -/
structure Footprint (σ : Type) where
  need : ℕ
  held : σ → Multiset (Handle Page)
  card_held : ∀ s, (held s).card ≤ need

namespace Service

variable {W σ τ α β : Type} [Storage W] (v : Service W) (F : Footprint σ)

/-- An answer with which a request was refused. -/
def Refusal (answer : Except Failure α) : Prop := ∃ e, v.Refuses e ∧ answer = .error (.error e)

/-- A call leads to an answer and a state with a property, and keeps the world in order. -/
def Runs (call : Call W σ α) (s : σ) (post : Except Failure α → σ → Prop) : Prop :=
  ∀ R w, F.need + R.card ≤ v.limit → v.Good (F.held s + R) w →
    ∃ answer s' w', call s w = (answer, s', w') ∧ post answer s' ∧ v.Good (F.held s' + R) w'

variable {v F}

lemma Runs.mono {call : Call W σ α} {s : σ} {post post' : Except Failure α → σ → Prop}
    (h : v.Runs F call s post) (hpost : ∀ answer s', post answer s' → post' answer s') :
    v.Runs F call s post' := by
  intro R w hR hw
  obtain ⟨answer, s', w', heq, hp, hw'⟩ := h R w hR hw
  exact ⟨answer, s', w', heq, hpost answer s' hp, hw'⟩

variable (v)

/-- What a pull may answer when a list of answers is left, and what is left then: it is refused, or
gives the head of the list. -/
def Pulls (answers : List Answer) (answer : Except Failure (Option Row)) (rest : List Answer) :
    Prop :=
  v.Refusal answer ∧ rest = answers ∨ (answer, rest) = Answers.pop answers

/-- A cursor behaves as a list of answers does.  The relation `At` says which part of the list is
left in a state. -/
structure Plays (F : Footprint σ) (c : Cursor W σ) (all : List Answer)
    (At : List Answer → σ → Prop) : Prop where
  /-- After a positive answer the row can be taken without the world. -/
  hasNext : ∀ {answers s}, At answers s → v.Runs F c.hasNext s fun answer s' =>
    v.Refusal answer ∧ At answers s' ∨
      answer = (Answers.ask answers).1 ∧ At (Answers.ask answers).2 s' ∧
        ∀ row rest, answers = .ok row :: rest → ∀ w, ∃ s'', c.next s' w = (.ok row, s'', w) ∧
          F.held s'' = F.held s' ∧ At rest s''
  next : ∀ {answers s}, At answers s → v.Runs F c.next s fun answer s' =>
    v.Refusal answer ∧ At answers s' ∨
      answer = (Answers.take answers).1 ∧ At (Answers.take answers).2 s'
  rewind : ∀ {answers s}, At answers s → v.Runs F c.rewind s fun answer s' =>
    answer = .ok () ∧ At all s'

/-- A feed behaves as a list of answers does. -/
structure Feeds (F : Footprint σ) (f : Feed W σ) (all : List Answer)
    (At : List Answer → σ → Prop) : Prop where
  fetch : ∀ {answers s}, At answers s → v.Runs F f.fetch s fun answer s' =>
    ∃ rest, v.Pulls answers answer rest ∧ At rest s'
  rewind : ∀ {answers s}, At answers s → v.Runs F f.rewind s fun answer s' =>
    answer = .ok () ∧ At all s'

namespace Plays

variable {v} {F : Footprint σ} {c : Cursor W σ} {all : List Answer} {At : List Answer → σ → Prop}

/-! ## Loops -/

lemma pull (hc : v.Plays F c all At) {answers : List Answer} {s : σ} (hs : At answers s) :
    v.Runs F c.pull s fun answer s' => ∃ rest, v.Pulls answers answer rest ∧ At rest s' := by
  intro R w hR hw
  obtain ⟨answer, s', w', heq, hpost, hw'⟩ := hc.hasNext hs R w hR hw
  rcases hpost with ⟨⟨e, he, rfl⟩, hs'⟩ | ⟨rfl, hs', hready⟩
  · refine ⟨.error (.error e), s', w', ?_, ⟨answers, .inl ⟨⟨e, he, rfl⟩, rfl⟩, hs'⟩, hw'⟩
    simp only [Cursor.pull, heq]
  · rcases answers with _ | ⟨e | row, rest⟩
    · have hask : c.hasNext s w = (.ok false, s', w') := heq
      refine ⟨.ok none, s', w', ?_, ⟨[], .inr rfl, hs'⟩, hw'⟩
      simp only [Cursor.pull, hask]
    · have hask : c.hasNext s w = (.error e, s', w') := heq
      refine ⟨.error e, s', w', ?_, ⟨rest, .inr rfl, hs'⟩, hw'⟩
      simp only [Cursor.pull, hask]
    · have hask : c.hasNext s w = (.ok true, s', w') := heq
      obtain ⟨s'', hnext, hheld, hs''⟩ := hready row rest rfl w'
      refine ⟨.ok (some row), s'', w', ?_, ⟨rest, .inr rfl, hs''⟩, hheld ▸ hw'⟩
      simp only [Cursor.pull, hask, hnext]

lemma find (hc : v.Plays F c all At) (fin : c.Finite) (test : Row → Except Failure Bool)
    {answers : List Answer} {s : σ} (hs : At answers s) :
    v.Runs F (c.find fin test) s fun answer s' => ∃ rest,
      v.Pulls (Answers.filter test answers) answer (Answers.filter test rest) ∧ At rest s' := by
  induction answers generalizing s with
  | nil =>
    intro R w hR hw
    obtain ⟨answer, s', w', heq, ⟨rest, hpulls, hs'⟩, hw'⟩ := hc.pull hs R w hR hw
    rcases hpulls with ⟨⟨e, he, rfl⟩, rfl⟩ | hpop
    · exact ⟨_, s', w', Cursor.find_of_error heq, ⟨[], .inl ⟨⟨e, he, rfl⟩, rfl⟩, hs'⟩, hw'⟩
    · obtain ⟨rfl, rfl⟩ := Prod.mk.inj hpop
      exact ⟨_, s', w', Cursor.find_of_none heq, ⟨[], .inr rfl, hs'⟩, hw'⟩
  | cons head tail ih =>
    intro R w hR hw
    obtain ⟨answer, s', w', heq, ⟨rest, hpulls, hs'⟩, hw'⟩ := hc.pull hs R w hR hw
    rcases hpulls with ⟨⟨e, he, rfl⟩, rfl⟩ | hpop
    · exact ⟨_, s', w', Cursor.find_of_error heq, ⟨_, .inl ⟨⟨e, he, rfl⟩, rfl⟩, hs'⟩, hw'⟩
    · obtain ⟨rfl, rfl⟩ := Prod.mk.inj hpop
      rcases head with e | row
      · exact ⟨_, s', w', Cursor.find_of_error heq, ⟨rest, .inr rfl, hs'⟩, hw'⟩
      · have hfind : c.find fin test s w = _ := Cursor.find_of_some heq
        rcases htest : test row with e | _ | _ <;> rw [htest] at hfind
        · refine ⟨.error e, s', w', hfind, ⟨rest, .inr ?_, hs'⟩, hw'⟩
          rw [Answers.filter_cons, Answers.keep, htest]
          rfl
        · obtain ⟨answer, s'', w'', hrun, ⟨left, hpulls, hs''⟩, hw''⟩ := ih hs' R w' hR hw'
          refine ⟨answer, s'', w'', hfind.trans hrun, ⟨left, ?_, hs''⟩, hw''⟩
          rw [Answers.filter_cons, Answers.keep, htest]
          exact hpulls
        · refine ⟨.ok (some row), s', w', hfind, ⟨rest, .inr ?_, hs'⟩, hw'⟩
          rw [Answers.filter_cons, Answers.keep, htest]
          rfl

lemma fold (hc : v.Plays F c all At) (fin : c.Finite) (f : β → Row → Except Failure β) (b : β)
    {answers : List Answer} {s : σ} (hs : At answers s) :
    v.Runs F (c.fold fin f b) s fun answer _ =>
      v.Refusal answer ∨ answer = answers.foldlM (fun b answer => answer.bind (f b)) b := by
  induction answers generalizing s b with
  | nil =>
    intro R w hR hw
    obtain ⟨answer, s', w', heq, ⟨rest, hpulls, hs'⟩, hw'⟩ := hc.pull hs R w hR hw
    rcases hpulls with ⟨⟨e, he, rfl⟩, rfl⟩ | hpop
    · exact ⟨_, s', w', Cursor.fold_of_error heq, .inl ⟨e, he, rfl⟩, hw'⟩
    · obtain ⟨rfl, rfl⟩ := Prod.mk.inj hpop
      exact ⟨_, s', w', Cursor.fold_of_none heq, .inr rfl, hw'⟩
  | cons head tail ih =>
    intro R w hR hw
    obtain ⟨answer, s', w', heq, ⟨rest, hpulls, hs'⟩, hw'⟩ := hc.pull hs R w hR hw
    rcases hpulls with ⟨⟨e, he, rfl⟩, rfl⟩ | hpop
    · exact ⟨_, s', w', Cursor.fold_of_error heq, .inl ⟨e, he, rfl⟩, hw'⟩
    · obtain ⟨rfl, rfl⟩ := Prod.mk.inj hpop
      rcases head with e | row
      · exact ⟨_, s', w', Cursor.fold_of_error heq, .inr rfl, hw'⟩
      · have hfold : c.fold fin f b s w = _ := Cursor.fold_of_some heq
        rcases hf : f b row with e | b' <;> rw [hf] at hfold
        · refine ⟨.error e, s', w', hfold, .inr ?_, hw'⟩
          rw [List.foldlM_cons]
          show Except.error e = (f b row).bind _
          rw [hf]
          rfl
        · obtain ⟨answer, s'', w'', hrun, hpost, hw''⟩ := ih b' hs' R w' hR hw'
          refine ⟨answer, s'', w'', hfold.trans hrun, hpost.imp_right ?_, hw''⟩
          intro heq
          rw [List.foldlM_cons]
          show answer = (f b row).bind _
          rw [hf]
          exact heq

end Plays

/-- Collecting rows in front of others is draining. -/
lemma foldlM_cons_eq_drain (answers : List Answer) (rows : List Row) :
    answers.foldlM (fun rows answer => answer.bind fun row => .ok (row :: rows)) rows =
      (Answers.drain answers).map fun list => list.reverse ++ rows := by
  induction answers generalizing rows with
  | nil => rfl
  | cons head tail ih =>
    rw [List.foldlM_cons, Answers.drain, List.mapM_cons]
    rcases head with e | row
    · rfl
    · show tail.foldlM _ (row :: rows) = _
      rw [ih]
      show _ = Except.map _ ((Answers.drain tail).bind fun list => .ok (row :: list))
      rcases Answers.drain tail with e | list
      · rfl
      · simp [Except.map, Except.bind]

variable {v} in
lemma Plays.drain {c : Cursor W σ} {all : List Answer} {At : List Answer → σ → Prop}
    (hc : v.Plays F c all At) (fin : c.Finite) {answers : List Answer} {s : σ}
    (hs : At answers s) :
    v.Runs F (c.drain fin) s fun answer _ =>
      v.Refusal answer ∨ answer = Answers.drain answers := by
  intro R w hR hw
  obtain ⟨answer, s', w', heq, hpost, hw'⟩ := hc.fold fin (fun rows row => .ok (row :: rows)) []
    hs R w hR hw
  rw [foldlM_cons_eq_drain] at hpost
  rcases hpost with ⟨e, he, rfl⟩ | rfl
  · refine ⟨.error (.error e), s', w', ?_, .inl ⟨e, he, rfl⟩, hw'⟩
    simp only [Cursor.drain, heq]
  · refine ⟨Answers.drain answers, s', w', ?_, .inr rfl, hw'⟩
    rcases hdrain : Answers.drain answers with e | list <;> rw [hdrain] at heq
    · have hfold : c.fold fin _ [] s w = (.error e, s', w') := heq
      simp only [Cursor.drain, hfold]
    · have hfold : c.fold fin _ [] s w = (.ok (list.reverse ++ []), s', w') := heq
      simp only [Cursor.drain, hfold, List.append_nil, List.reverse_reverse]

end Service

end RowStore
