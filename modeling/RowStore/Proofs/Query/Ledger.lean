import Mathlib.Data.List.DropRight
import RowStore.Proofs.Database.History

/-!
# The ledger of a cursor

A cursor over a feed stands between the feed and a reader.  What it promises to the two is a matter
of what passes through it: the calls that the reader makes and their answers, and what it asks of
the feed in the meantime and what comes back.  Both are written down in the ledger of the cursor
(`Lookahead.ledger`), for any feed whatever, also one that fails now and then, or that says that
there is no row and produces one when it is asked again.

What an entry should be is said without the state of the cursor.  Whether the cursor is open follows
from the entries so far (`Ledger.isOpen`), and so does the row that it keeps for the reader: it is
what the feed produced since rows were last discarded and what the reader has not taken yet
(`Ledger.pending`).  An entry has to befit these two (`Entry.Befits`).

The state of a cursor agrees with its ledger (`Ledger.Matches`).  Every call keeps this and adds an
entry that befits the cursor (`Lookahead.call_makes`), and so does every run
(`Lookahead.ledger_befits`).
-/

namespace RowStore

variable {W σ : Type}

/-! ## What is asked of a feed -/

/-- Something that is asked of a feed, with the answer. -/
inductive Feed.Event where
  | start (answer : Except Failure Unit)
  | fetch (answer : Except Failure (Option Row))
  | rewind (answer : Except Failure Unit)
  | close

/-- The feed that writes down in its world what it is asked. -/
def Feed.recorded (f : Feed W σ) : Feed (W × List Feed.Event) σ where
  start s x :=
    let (answer, s, w) := f.start s x.1
    (answer, s, w, x.2 ++ [.start answer])
  fetch s x :=
    let (answer, s, w) := f.fetch s x.1
    (answer, s, w, x.2 ++ [.fetch answer])
  rewind s x :=
    let (answer, s, w) := f.rewind s x.1
    (answer, s, w, x.2 ++ [.rewind answer])
  close s x :=
    let (s, w) := f.close s x.1
    (s, w, x.2 ++ [.close])

/-- Asked in this order, the feed gives these answers, and comes from one state and world to
another. -/
inductive Feed.Gives (f : Feed W σ) : List Feed.Event → σ → W → σ → W → Prop
  | nil {s : σ} {w : W} : Gives f [] s w s w
  | start {answer : Except Failure Unit} {rest : List Feed.Event} {s s₁ s₂ : σ} {w w₁ w₂ : W}
    (h : f.start s w = (answer, s₁, w₁)) (hrest : Gives f rest s₁ w₁ s₂ w₂) :
    Gives f (.start answer :: rest) s w s₂ w₂
  | fetch {answer : Except Failure (Option Row)} {rest : List Feed.Event} {s s₁ s₂ : σ}
    {w w₁ w₂ : W} (h : f.fetch s w = (answer, s₁, w₁)) (hrest : Gives f rest s₁ w₁ s₂ w₂) :
    Gives f (.fetch answer :: rest) s w s₂ w₂
  | rewind {answer : Except Failure Unit} {rest : List Feed.Event} {s s₁ s₂ : σ} {w w₁ w₂ : W}
    (h : f.rewind s w = (answer, s₁, w₁)) (hrest : Gives f rest s₁ w₁ s₂ w₂) :
    Gives f (.rewind answer :: rest) s w s₂ w₂
  | close {rest : List Feed.Event} {s s₁ s₂ : σ} {w w₁ w₂ : W} (h : f.close s w = (s₁, w₁))
    (hrest : Gives f rest s₁ w₁ s₂ w₂) : Gives f (.close :: rest) s w s₂ w₂

lemma Feed.Gives.append {f : Feed W σ} {events more : List Feed.Event} {s s₁ s₂ : σ}
    {w w₁ w₂ : W} (h : f.Gives events s w s₁ w₁) (hmore : f.Gives more s₁ w₁ s₂ w₂) :
    f.Gives (events ++ more) s w s₂ w₂ := by
  induction h with
  | nil => exact hmore
  | start h _ ih => exact .start h (ih hmore)
  | fetch h _ ih => exact .fetch h (ih hmore)
  | rewind h _ ih => exact .rewind h (ih hmore)
  | close h _ ih => exact .close h (ih hmore)

/-! ## What is said to a reader -/

namespace Cursor

/-- A call that a reader makes, with the answer. -/
inductive Said where
  | start (answer : Except Failure Unit)
  | hasNext (answer : Except Failure Bool)
  | next (answer : Except Failure Row)
  | rewind (answer : Except Failure Unit)
  | close

/-- Makes a call. -/
def call (c : Cursor W σ) : Act → σ → W → Said × σ × W
  | .start, s, w => let (answer, s, w) := c.start s w; (.start answer, s, w)
  | .hasNext, s, w => let (answer, s, w) := c.hasNext s w; (.hasNext answer, s, w)
  | .next, s, w => let (answer, s, w) := c.next s w; (.next answer, s, w)
  | .rewind, s, w => let (answer, s, w) := c.rewind s w; (.rewind answer, s, w)
  | .close, s, w => let (s, w) := c.close s w; (.close, s, w)

/-- Makes several calls. -/
def calls (c : Cursor W σ) : List Act → σ → W → List Said × σ × W
  | [], s, w => ([], s, w)
  | act :: acts, s, w =>
    let (said, s, w) := c.call act s w
    let (more, s, w) := c.calls acts s w
    (said :: more, s, w)

end Cursor

/-! ## Ledgers -/

/-- A call on a cursor, and what the cursor asked of its feed during the call. -/
structure Entry where
  said : Cursor.Said
  asked : List Feed.Event

/-- The ledger of the cursor over a feed in the course of several calls, and the state and the world
after them. -/
def Lookahead.ledger (f : Feed W σ) :
    List Cursor.Act → Lookahead σ → W → List Entry × Lookahead σ × W
  | [], s, w => ([], s, w)
  | act :: acts, s, w =>
    let (said, s, w, asked) := (cursor f.recorded).call act s (w, [])
    let (entries, s, w) := ledger f acts s w
    (⟨said, asked⟩ :: entries, s, w)

namespace Entry

/-- The reader opened or closed the cursor or went back, so that no row is kept for him. -/
def discards (e : Entry) : Bool :=
  match e.said with
  | .start _ | .rewind _ | .close => true
  | .hasNext _ | .next _ => false

/-- Whether the cursor is open after a call that has a say in this. -/
def opens? (e : Entry) : Option Bool :=
  match e.said with
  | .start (.ok ()) => some true
  | .start (.error _) | .close => some false
  | .hasNext _ | .next _ | .rewind _ => none

/-- The rows that the reader got. -/
def taken (e : Entry) : List Row :=
  match e.said with
  | .next (.ok row) => [row]
  | _ => []

/-- The rows that the feed produced. -/
def produced (e : Entry) : List Row :=
  e.asked.filterMap fun
    | .fetch (.ok row) => row
    | _ => none

end Entry

namespace Ledger

/-- Whether the cursor is open: the last call that had a say in this decides. -/
def isOpen (es : List Entry) : Bool := (es.filterMap Entry.opens?).getLast?.getD false

/-- What was entered since rows were last discarded. -/
def recent (es : List Entry) : List Entry := es.rtakeWhile fun e => !e.discards

/-- The rows that the feed produced since rows were last discarded. -/
def produced (es : List Entry) : List Row := (recent es).flatMap Entry.produced

/-- The rows that the reader took since rows were last discarded. -/
def taken (es : List Entry) : List Row := (recent es).flatMap Entry.taken

/-- The rows that were produced for the reader and that he has not taken. -/
def pending (es : List Entry) : List Row := (produced es).drop (taken es).length

end Ledger

/-- What asking for a row answers if the feed has to be asked for one. -/
def Entry.passOn : Except Failure (Option Row) → Except Failure Row
  | .error e => .error e
  | .ok none => .error exhausted
  | .ok (some row) => .ok row

/-- An entry that befits a cursor, given whether it is open and which rows are pending. -/
inductive Entry.Befits : Bool → List Row → Entry → Prop
  /-- A closed cursor refuses to answer, and leaves the feed alone. -/
  | hasNext_closed : Befits false [] ⟨.hasNext (.error (notOpen hasNextText)), []⟩
  | next_closed : Befits false [] ⟨.next (.error (notOpen nextText)), []⟩
  | rewind_closed : Befits false [] ⟨.rewind (.error (notOpen rewindText)), []⟩
  | close_closed : Befits false [] ⟨.close, []⟩
  /-- The feed is made ready, or else given back at once. -/
  | start (isOpen : Bool) (pending : List Row) :
    Befits isOpen pending ⟨.start (.ok ()), [.start (.ok ())]⟩
  | start_error (isOpen : Bool) (pending : List Row) (e : Failure) :
    Befits isOpen pending ⟨.start (.error e), [.start (.error e), .close]⟩
  /-- A row that is pending is not fetched again. -/
  | hasNext_pending (row : Row) : Befits true [row] ⟨.hasNext (.ok true), []⟩
  | next_pending (row : Row) : Befits true [row] ⟨.next (.ok row), []⟩
  /-- If none is pending the feed is asked once, and its answer is passed on. -/
  | hasNext_fetch (answer : Except Failure (Option Row)) :
    Befits true [] ⟨.hasNext (answer.map Option.isSome), [.fetch answer]⟩
  | next_fetch (answer : Except Failure (Option Row)) :
    Befits true [] ⟨.next (passOn answer), [.fetch answer]⟩
  | rewind (pending : List Row) (answer : Except Failure Unit) :
    Befits true pending ⟨.rewind answer, [.rewind answer]⟩
  | close (pending : List Row) : Befits true pending ⟨.close, [.close]⟩

namespace Ledger

/-! ### One more entry -/

variable {es : List Entry} {e : Entry}

lemma isOpen_concat (es : List Entry) (e : Entry) :
    isOpen (es ++ [e]) = e.opens?.getD (isOpen es) := by
  rw [isOpen, isOpen, List.filterMap_append]
  cases h : e.opens? <;> simp [h]

lemma recent_concat (es : List Entry) (e : Entry) :
    recent (es ++ [e]) = if e.discards then [] else recent es ++ [e] := by
  rw [recent, List.rtakeWhile_concat, recent]
  cases e.discards <;> rfl

lemma produced_concat (es : List Entry) (e : Entry) :
    produced (es ++ [e]) = if e.discards then [] else produced es ++ e.produced := by
  rw [produced, recent_concat]
  split
  · rfl
  · rw [List.flatMap_append, List.flatMap_singleton, produced]

lemma taken_concat (es : List Entry) (e : Entry) :
    taken (es ++ [e]) = if e.discards then [] else taken es ++ e.taken := by
  rw [taken, recent_concat]
  split
  · rfl
  · rw [List.flatMap_append, List.flatMap_singleton, taken]

/-- A ledger agrees with the state of a cursor. -/
structure Matches (es : List Entry) (s : Lookahead σ) : Prop where
  isOpen_eq : isOpen es = s.isOpen
  taken_append_ahead : taken es ++ s.ahead.toList = produced es
  ahead_of_closed : s.isOpen = false → s.ahead = none

lemma matches_closed (s : σ) : Matches [] (Lookahead.closed s) := ⟨rfl, rfl, fun _ => rfl⟩

lemma Matches.pending_eq {s : Lookahead σ} (h : Matches es s) : pending es = s.ahead.toList := by
  rw [pending, ← h.taken_append_ahead, List.drop_left]

end Ledger

/-! ## Calls -/

namespace Lookahead

variable {f : Feed W σ} {s s' s'' : σ} {w w' w'' : W}

section

lemma start_of_ok (h : f.start s w = (.ok (), s', w')) (ahead : Option Row) (isOpen : Bool) :
    start f ⟨s, ahead, isOpen⟩ w = (.ok (), ⟨s', none, true⟩, w') := by
  simp only [start, h]

lemma start_of_error {e : Failure} (h : f.start s w = (.error e, s', w'))
    (hclose : f.close s' w' = (s'', w'')) (ahead : Option Row) (isOpen : Bool) :
    start f ⟨s, ahead, isOpen⟩ w = (.error e, ⟨s'', none, false⟩, w'') := by
  simp only [start, h, hclose]

lemma hasNext_of_answer {answer : Except Failure (Option Row)}
    (h : f.fetch s w = (answer, s', w')) :
    hasNext f ⟨s, none, true⟩ w =
      (answer.map Option.isSome, ⟨s', answer.toOption.join, true⟩, w') := by
  simp only [hasNext, h, if_true]
  cases answer <;> rfl

lemma next_of_answer {answer : Except Failure (Option Row)} (h : f.fetch s w = (answer, s', w')) :
    next f ⟨s, none, true⟩ w = (Entry.passOn answer, ⟨s', none, true⟩, w') := by
  simp only [next, hasNext_of_answer h, if_true]
  rcases answer with _ | _ | _ <;> rfl

lemma rewind_of_answer {answer : Except Failure Unit} (h : f.rewind s w = (answer, s', w'))
    (ahead : Option Row) :
    rewind f ⟨s, ahead, true⟩ w = (answer, ⟨s', none, true⟩, w') := by
  simp only [rewind, h, if_true]

lemma close_of_open (h : f.close s w = (s', w')) (ahead : Option Row) :
    close f ⟨s, ahead, true⟩ w = (⟨s', none, false⟩, w') := by
  simp only [close, h, if_true]

end

/-- What a call does to the state of a cursor, according to its entry in the ledger. -/
structure Enters (f : Feed W σ) (s : Lookahead σ) (w : W) (e : Entry) (s' : Lookahead σ) (w' : W) :
    Prop where
  gives : f.Gives e.asked s.feed w s'.feed w'
  befits : e.Befits s.isOpen s.ahead.toList
  isOpen_eq : s'.isOpen = e.opens?.getD s.isOpen
  ahead_eq : e.taken ++ s'.ahead.toList = if e.discards then [] else s.ahead.toList ++ e.produced
  ahead_of_closed : s'.isOpen = false → s'.ahead = none

/-- A call makes an entry, and goes as it does without a feed that writes down what it is asked. -/
def Makes (f : Feed W σ) (act : Cursor.Act) (s : Lookahead σ) (w : W) : Prop :=
  ∃ e s' w', (cursor f).call act s w = (e.said, s', w') ∧
    (cursor f.recorded).call act s (w, []) = (e.said, s', w', e.asked) ∧ Enters f s w e s' w'

lemma makes_start (f : Feed W σ) (s : Lookahead σ) (w : W) : Makes f .start s w := by
  obtain ⟨feed, ahead, isOpen⟩ := s
  rcases hstart : f.start feed w with ⟨e | _, feed', w'⟩
  · rcases hclose : f.close feed' w' with ⟨feed'', w''⟩
    have hstart' : f.recorded.start feed (w, []) = (.error e, feed', w', [.start (.error e)]) := by
      simp only [Feed.recorded, hstart, List.nil_append]
    have hclose' : f.recorded.close feed' (w', [.start (.error e)]) =
        (feed'', w'', [.start (.error e), .close]) := by
      simp only [Feed.recorded, hclose, List.cons_append, List.nil_append]
    refine ⟨⟨.start (.error e), _⟩, ⟨feed'', none, false⟩, w'', ?_, ?_,
      .start hstart (.close hclose .nil), .start_error _ _ e, rfl, rfl, fun _ => rfl⟩
    · simp only [Cursor.call, cursor, start_of_error hstart hclose]
    · simp only [Cursor.call, cursor, start_of_error hstart' hclose']
  · have hstart' : f.recorded.start feed (w, []) = (.ok (), feed', w', [.start (.ok ())]) := by
      simp only [Feed.recorded, hstart, List.nil_append]
    refine ⟨⟨.start (.ok ()), _⟩, ⟨feed', none, true⟩, w', ?_, ?_, .start hstart .nil, .start _ _,
      rfl, rfl, fun h => by cases h⟩
    · simp only [Cursor.call, cursor, start_of_ok hstart]
    · simp only [Cursor.call, cursor, start_of_ok hstart']

lemma enters_closed (f : Feed W σ) (s : σ) (w : W) {said : Cursor.Said}
    (h : Entry.Befits false [] ⟨said, []⟩) :
    Enters f ⟨s, none, false⟩ w ⟨said, []⟩ ⟨s, none, false⟩ w where
  gives := .nil
  befits := h
  isOpen_eq := by cases h <;> rfl
  ahead_eq := by cases h <;> rfl
  ahead_of_closed _ := rfl

/-- A closed cursor leaves everything as it is. -/
lemma makes_of_closed (f : Feed W σ) {act : Cursor.Act} (hact : act ≠ .start) (s : σ) (w : W) :
    Makes f act ⟨s, none, false⟩ w := by
  cases act with
  | start => exact absurd rfl hact
  | hasNext => exact ⟨_, _, _, rfl, rfl, enters_closed f s w .hasNext_closed⟩
  | next => exact ⟨_, _, _, rfl, rfl, enters_closed f s w .next_closed⟩
  | rewind => exact ⟨_, _, _, rfl, rfl, enters_closed f s w .rewind_closed⟩
  | close => exact ⟨_, _, _, rfl, rfl, enters_closed f s w .close_closed⟩

/-- An open cursor that keeps no row asks the feed for one. -/
lemma makes_of_fetch (f : Feed W σ) {act : Cursor.Act} (hact : act = .hasNext ∨ act = .next)
    (s : σ) (w : W) : Makes f act ⟨s, none, true⟩ w := by
  rcases hfetch : f.fetch s w with ⟨answer, s', w'⟩
  have hfetch' : f.recorded.fetch s (w, []) = (answer, s', w', [.fetch answer]) := by
    simp only [Feed.recorded, hfetch, List.nil_append]
  obtain rfl | rfl := hact
  · refine ⟨⟨.hasNext (answer.map Option.isSome), _⟩, ⟨s', answer.toOption.join, true⟩, w', ?_, ?_,
      .fetch hfetch .nil, .hasNext_fetch answer, rfl, ?_, fun h => by cases h⟩
    · simp only [Cursor.call, cursor, hasNext_of_answer hfetch]
    · simp only [Cursor.call, cursor, hasNext_of_answer hfetch']
    · rcases answer with _ | _ | _ <;> rfl
  · refine ⟨⟨.next (Entry.passOn answer), _⟩, ⟨s', none, true⟩, w', ?_, ?_, .fetch hfetch .nil,
      .next_fetch answer, rfl, ?_, fun h => by cases h⟩
    · simp only [Cursor.call, cursor, next_of_answer hfetch]
    · simp only [Cursor.call, cursor, next_of_answer hfetch']
    · rcases answer with _ | _ | _ <;> rfl

lemma makes_of_open (f : Feed W σ) {act : Cursor.Act} (hact : act ≠ .start) (s : σ)
    (ahead : Option Row) (w : W) : Makes f act ⟨s, ahead, true⟩ w := by
  cases act with
  | start => exact absurd rfl hact
  | hasNext =>
    rcases ahead with _ | row
    · exact makes_of_fetch f (.inl rfl) s w
    · exact ⟨⟨.hasNext (.ok true), []⟩, _, _, rfl, rfl, .nil, .hasNext_pending row, rfl, rfl,
        fun h => by cases h⟩
  | next =>
    rcases ahead with _ | row
    · exact makes_of_fetch f (.inr rfl) s w
    · exact ⟨⟨.next (.ok row), []⟩, _, _, rfl, rfl, .nil, .next_pending row, rfl, rfl,
        fun h => by cases h⟩
  | rewind =>
    rcases hrewind : f.rewind s w with ⟨answer, s', w'⟩
    have hrewind' : f.recorded.rewind s (w, []) = (answer, s', w', [.rewind answer]) := by
      simp only [Feed.recorded, hrewind, List.nil_append]
    refine ⟨⟨.rewind answer, _⟩, ⟨s', none, true⟩, w', ?_, ?_, .rewind hrewind .nil,
      .rewind _ answer, rfl, rfl, fun h => by cases h⟩
    · simp only [Cursor.call, cursor, rewind_of_answer hrewind]
    · simp only [Cursor.call, cursor, rewind_of_answer hrewind']
  | close =>
    rcases hclose : f.close s w with ⟨s', w'⟩
    have hclose' : f.recorded.close s (w, []) = (s', w', [.close]) := by
      simp only [Feed.recorded, hclose, List.nil_append]
    refine ⟨⟨.close, _⟩, ⟨s', none, false⟩, w', ?_, ?_, .close hclose .nil, .close _, rfl, rfl,
      fun _ => rfl⟩
    · simp only [Cursor.call, cursor, close_of_open hclose]
    · simp only [Cursor.call, cursor, close_of_open hclose']

/-- **Every call makes an entry that befits the cursor.** -/
lemma call_makes (f : Feed W σ) (act : Cursor.Act) {s : Lookahead σ}
    (hs : s.isOpen = false → s.ahead = none) (w : W) : Makes f act s w := by
  by_cases hact : act = .start
  · exact hact ▸ makes_start f s w
  · obtain ⟨feed, ahead, _ | _⟩ := s
    · obtain rfl : ahead = none := hs rfl
      exact makes_of_closed f hact feed w
    · exact makes_of_open f hact feed ahead w

lemma Enters.matches {s s' : Lookahead σ} {e : Entry} (h : Enters f s w e s' w')
    {es : List Entry} (hes : Ledger.Matches es s) : Ledger.Matches (es ++ [e]) s' where
  isOpen_eq := by rw [Ledger.isOpen_concat, hes.isOpen_eq, h.isOpen_eq]
  taken_append_ahead := by
    have hahead := h.ahead_eq
    rw [Ledger.taken_concat, Ledger.produced_concat]
    split at hahead
    · next hdiscards =>
      rw [if_pos hdiscards, if_pos hdiscards]
      exact (List.append_eq_nil_iff.1 hahead).2
    · next hdiscards =>
      rw [if_neg hdiscards, if_neg hdiscards, List.append_assoc, hahead, ← List.append_assoc,
        hes.taken_append_ahead]
  ahead_of_closed := h.ahead_of_closed

/-- **A run keeps to its ledger.**  Every entry befits the cursor at the time, and at any time the
ledger agrees with a state. -/
lemma ledger_befits (f : Feed W σ) (acts : List Cursor.Act) {es : List Entry} {s : Lookahead σ}
    (hs : Ledger.Matches es s) (w : W) :
    ∃ entries s' w', ledger f acts s w = (entries, s', w') ∧
      (cursor f).calls acts s w = (entries.map Entry.said, s', w') ∧
      f.Gives (entries.flatMap Entry.asked) s.feed w s'.feed w' ∧
      Ledger.Matches (es ++ entries) s' ∧
      (∀ before, before <+: entries → ∃ t : Lookahead σ, Ledger.Matches (es ++ before) t) ∧
      ∀ before e rest, entries = before ++ e :: rest →
        e.Befits (Ledger.isOpen (es ++ before)) (Ledger.pending (es ++ before)) := by
  induction acts generalizing es s w with
  | nil =>
    refine ⟨[], s, w, rfl, rfl, .nil, by rwa [List.append_nil], fun before hbefore => ?_,
      fun before e rest h => ?_⟩
    · exact ⟨s, by rwa [List.prefix_nil.1 hbefore, List.append_nil]⟩
    · exact absurd h.symm (List.append_ne_nil_of_right_ne_nil _ (List.cons_ne_nil _ _))
  | cons act acts ih =>
    obtain ⟨e, s₁, w₁, hcall, hrecorded, henters⟩ := call_makes f act hs.ahead_of_closed w
    have hs₁ := henters.matches hs
    obtain ⟨entries, s', w', hledger, hcalls, hgives, hs', hprefixes, hbefits⟩ := ih hs₁ w₁
    have hassoc : ∀ more, es ++ e :: more = es ++ [e] ++ more := fun more => by
      rw [List.append_assoc, List.singleton_append]
    refine ⟨e :: entries, s', w', ?_, ?_, ?_, ?_, fun before hbefore => ?_,
      fun before e' rest h => ?_⟩
    · simp only [ledger, hrecorded, hledger]
    · simp only [Cursor.calls, hcall, hcalls, List.map_cons]
    · exact henters.gives.append hgives
    · rwa [hassoc]
    · obtain rfl | ⟨before, rfl, hlater⟩ := List.prefix_cons_iff.1 hbefore
      · exact ⟨s, by rwa [List.append_nil]⟩
      · rw [hassoc]
        exact hprefixes before hlater
    · rcases before with _ | ⟨_, before⟩
      · cases h
        rw [List.append_nil, hs.isOpen_eq, hs.pending_eq]
        exact henters.befits
      · cases h
        rw [hassoc]
        exact hbefits before e' rest rfl

end Lookahead

end RowStore
