import RowStore.Proofs.Query.Operators

/-!
# What every call keeps

Some properties do not depend on what a plan computes.  Handles are accounted for, an operator that
is closed has nothing open below it, rows fill their schemas, and calls fail in certain ways only:
each of these is kept by every call on every operator, in whatever state the operator is and whether
the call succeeds or not.  They are kept for the same reason, and so there is one induction over
plans for all of them (`Plan.governed`).

A `Regime` is what such an argument has to know of the world: when it is in order while certain
handles are out, with which failures calls may end, and what is known of rows.  As for a `Service`,
it only has to hold as long as fewer than `limit` handles are out.

`Regime.Governs` is the contract of a cursor under a regime.  Its states are in order before and
after every call, and closing leads to a state in which the cursor is *shut*: nothing in it is open
and it holds nothing.  Whether a plan is shut (`Plan.Shut`) does not depend on the regime.  A cursor
with one row ahead closes its feed only while it is open itself, so its states have to be such that
it is shut whenever it is not open (`Lookahead.Tidy`).
-/

namespace RowStore

variable {W σ τ α β : Type} [Storage W]

/-- What is known of a world in which plans run, of the rows and of the failures. -/
structure Regime (W : Type) [Storage W] where
  /-- The number of handles that may be out. -/
  limit : ℕ
  /-- The world is in order, with these handles out. -/
  Good : Multiset (Handle Page) → W → Prop
  /-- A call may end with this failure, in this world. -/
  Fault : Failure → W → Prop
  /-- A row is as its schema wants it. -/
  Conforms : Schema → Row → Prop
  /-- The table scans that are made. -/
  Scans : TableScan → Prop
  /-- The heap files that a table scan can be on. -/
  File : TableScan → HeapFile → Prop
  fault_notOpen : ∀ call w, Fault (notOpen call) w
  fault_exhausted : ∀ w, Fault exhausted w
  fault_release : ∀ {e w} h, Fault e w → Fault e (Storage.release h w)
  file : ∀ {H w}, Good H w → ∀ {t file}, Scans t →
    Storage.heapFile t.table w = .ok file → File t file
  heapFile : ∀ {H w}, Good H w → ∀ {t e}, Scans t →
    Storage.heapFile t.table w = .error e → Fault (.error e) w
  shape : ∀ {H w}, Good H w → ∀ {t file}, Scans t → Storage.heapFile t.table w = .ok file →
    file.schema.shape ≠ t.schema.shape →
      Fault (.error (.typeMismatch t.schema.text file.schema.text)) w
  pageCount : ∀ {H w}, Good H w → ∀ {file e},
    Storage.pageCount file w = .error e → Fault (.error e) w
  request : ∀ {H w}, Good H w → H.card < limit → ∀ page,
    (∃ e w', Storage.request page .readOnly w = (.error e, w') ∧ Fault (.error e) w' ∧
        Good H w') ∨
      ∃ h w', Storage.request page .readOnly w = (.ok h, w') ∧ Good (h ::ₘ H) w' ∧
        ∀ t file, Scans t → File t file → page.table = file.id →
          ∀ row ∈ h.content.rows, Conforms t.schema row
  release : ∀ {H h w}, Good (h ::ₘ H) w → Good H (Storage.release h w)

namespace Regime

variable (G : Regime W)

/-- An answer has a property, or is a failure with which a call may end. -/
def Allows (T : α → Prop) (w : W) : Except Failure α → Prop
  | .ok a => T a
  | .error e => G.Fault e w

/-- A computation that does not depend on the world gives such an answer. -/
def Sanctions (T : α → Prop) (answer : Except Failure α) : Prop := ∀ w, G.Allows T w answer

/-- A call keeps the state and the world in order, and gives an answer that is allowed. -/
def Keeps (F : Footprint σ) (A : σ → Prop) (T : α → Prop) (call : Call W σ α) : Prop :=
  ∀ ⦃s R w⦄, F.need + R.card ≤ G.limit → A s → G.Good (F.held s + R) w →
    ∃ answer s' w', call s w = (answer, s', w') ∧ A s' ∧ G.Good (F.held s' + R) w' ∧
      G.Allows T w' answer

/-- A way to close that leads to a shut state, and after which failures may be told that could be
told before. -/
def Closes (F : Footprint σ) (A Z : σ → Prop) (close : σ → W → σ × W) : Prop :=
  ∀ ⦃s R w⦄, A s → G.Good (F.held s + R) w →
    ∃ s' w', close s w = (s', w') ∧ Z s' ∧ G.Good (F.held s' + R) w' ∧
      ∀ e, G.Fault e w → G.Fault e w'

/-- Every call on a cursor keeps its states in order, of which `Z` says that they are shut, and the
rows that it hands out have a property. -/
structure Governs (F : Footprint σ) (A Z : σ → Prop) (T : Row → Prop) (c : Cursor W σ) : Prop where
  start : G.Keeps F A (fun _ => True) c.start
  hasNext : G.Keeps F A (fun _ => True) c.hasNext
  next : G.Keeps F A T c.next
  rewind : G.Keeps F A (fun _ => True) c.rewind
  close : G.Closes F A Z c.close
  of_shut : ∀ {s}, Z s → A s

/-- Every call on a feed keeps its states in order. -/
structure GovernsFeed (F : Footprint σ) (A Z : σ → Prop) (T : Row → Prop) (f : Feed W σ) :
    Prop where
  start : G.Keeps F A (fun _ => True) f.start
  fetch : G.Keeps F A (fun found => ∀ row ∈ found, T row) f.fetch
  rewind : G.Keeps F A (fun _ => True) f.rewind
  close : G.Closes F A Z f.close
  of_shut : ∀ {s}, Z s → A s

variable {G} {F : Footprint σ} {A Z : σ → Prop} {T : Row → Prop}

/-! ## Loops -/

namespace Governs

variable {c : Cursor W σ}

lemma pull (hc : G.Governs F A Z T c) : G.Keeps F A (fun found => ∀ row ∈ found, T row) c.pull := by
  intro s R w hR hs hw
  obtain ⟨answer, s₁, w₁, hask, hs₁, hw₁, hallows⟩ := hc.hasNext hR hs hw
  rcases answer with e | _ | _
  · refine ⟨.error e, s₁, w₁, ?_, hs₁, hw₁, hallows⟩
    simp only [Cursor.pull, hask]
  · refine ⟨.ok none, s₁, w₁, ?_, hs₁, hw₁, fun _ h => by cases h⟩
    simp only [Cursor.pull, hask]
  · obtain ⟨answer, s₂, w₂, htake, hs₂, hw₂, hallows⟩ := hc.next hR hs₁ hw₁
    rcases answer with e | row
    · refine ⟨.error e, s₂, w₂, ?_, hs₂, hw₂, hallows⟩
      simp only [Cursor.pull, hask, htake]
    · refine ⟨.ok (some row), s₂, w₂, ?_, hs₂, hw₂, fun row' h => ?_⟩
      · simp only [Cursor.pull, hask, htake]
      · cases h
        exact hallows

/-- Looking for a row that passes a test.  The loop goes on as long as pulls take rows. -/
lemma find (hc : G.Governs F A Z T c) (fin : c.Finite) {test : Row → Except Failure Bool}
    (htest : ∀ row, T row → G.Sanctions (fun _ => True) (test row)) :
    G.Keeps F A (fun found => ∀ row ∈ found, T row) (c.find fin test) := by
  intro s R w hR hs hw
  induction fin.wf.apply s generalizing w with
  | intro s _ ih =>
    obtain ⟨answer, s₁, w₁, hpull, hs₁, hw₁, hallows⟩ := hc.pull hR hs hw
    rcases answer with e | _ | row
    · exact ⟨_, s₁, w₁, Cursor.find_of_error hpull, hs₁, hw₁, hallows⟩
    · exact ⟨_, s₁, w₁, Cursor.find_of_none hpull, hs₁, hw₁, hallows⟩
    · have hrow : T row := hallows row rfl
      have hfind : c.find fin test s w = _ := Cursor.find_of_some hpull
      rcases hpass : test row with e | _ | _ <;> rw [hpass] at hfind
      · have he := htest row hrow w₁
        rw [hpass] at he
        exact ⟨_, s₁, w₁, hfind, hs₁, hw₁, he⟩
      · rw [hfind]
        exact ih s₁ ⟨w, row, w₁, hpull⟩ hs₁ hw₁
      · exact ⟨_, s₁, w₁, hfind, hs₁, hw₁, hallows⟩

/-- Folding all rows into an accumulator. -/
lemma fold (hc : G.Governs F A Z T c) (fin : c.Finite) {f : β → Row → Except Failure β}
    {B : β → Prop} (hf : ∀ b row, B b → T row → G.Sanctions B (f b row)) {b : β} (hb : B b) :
    G.Keeps F A B (c.fold fin f b) := by
  intro s R w hR hs hw
  induction fin.wf.apply s generalizing b w with
  | intro s _ ih =>
    obtain ⟨answer, s₁, w₁, hpull, hs₁, hw₁, hallows⟩ := hc.pull hR hs hw
    rcases answer with e | _ | row
    · exact ⟨_, s₁, w₁, Cursor.fold_of_error hpull, hs₁, hw₁, hallows⟩
    · exact ⟨_, s₁, w₁, Cursor.fold_of_none hpull, hs₁, hw₁, hb⟩
    · have hstep := hf b row hb (hallows row rfl) w₁
      have hfold : c.fold fin f b s w = _ := Cursor.fold_of_some hpull
      rcases hnext : f b row with e | b' <;> rw [hnext] at hstep hfold
      · exact ⟨_, s₁, w₁, hfold, hs₁, hw₁, hstep⟩
      · rw [hfold]
        exact ih s₁ ⟨w, row, w₁, hpull⟩ hstep hs₁ hw₁

lemma drain (hc : G.Governs F A Z T c) (fin : c.Finite) :
    G.Keeps F A (fun rows => ∀ row ∈ rows, T row) (c.drain fin) := by
  intro s R w hR hs hw
  have hcollect : ∀ (rows : List Row) row, (∀ row ∈ rows, T row) → T row →
      G.Sanctions (fun rows => ∀ row ∈ rows, T row) (.ok (row :: rows)) :=
    fun rows row hrows hrow _ => List.forall_mem_cons.2 ⟨hrow, hrows⟩
  obtain ⟨answer, s', w', hfold, hs', hw', hallows⟩ :=
    hc.fold fin hcollect (List.forall_mem_nil T) hR hs hw
  rcases answer with e | rows
  · refine ⟨.error e, s', w', ?_, hs', hw', hallows⟩
    simp only [Cursor.drain, hfold]
  · refine ⟨.ok rows.reverse, s', w', ?_, hs', hw', fun row hrow => ?_⟩
    · simp only [Cursor.drain, hfold]
    · exact hallows row (List.mem_reverse.1 hrow)

end Governs

end Regime

/-! ## One row ahead -/

namespace Lookahead

/-- A cursor over a feed is closed, has no row ahead, and its feed is shut. -/
structure Shut (Z : σ → Prop) (s : Lookahead σ) : Prop where
  closed : s.isOpen = false
  empty : s.ahead = none
  feed : Z s.feed

/-- The feed of a cursor is in order, the row ahead has a property, and the cursor is shut unless it
is open. -/
structure Tidy (A Z : σ → Prop) (T : Row → Prop) (s : Lookahead σ) : Prop where
  feed : A s.feed
  ahead : ∀ row ∈ s.ahead, T row
  shut : s.isOpen = false → s.Shut Z

end Lookahead

namespace Regime.GovernsFeed

variable {G : Regime W} {F : Footprint σ} {A Z : σ → Prop} {T : Row → Prop} {f : Feed W σ}

lemma start_lookahead (hf : G.GovernsFeed F A Z T f) :
    G.Keeps F.lookahead (Lookahead.Tidy A Z T) (fun _ => True) (Lookahead.start f) := by
  intro s R w hR hs hw
  obtain ⟨answer, feed₁, w₁, hstart, hfeed₁, hw₁, hallows⟩ := hf.start hR hs.feed hw
  rcases answer with e | ⟨⟩
  · obtain ⟨feed₂, w₂, hclose, hshut, hw₂, hfaults⟩ := hf.close hfeed₁ hw₁
    refine ⟨.error e, ⟨feed₂, none, false⟩, w₂, ?_, ?_, hw₂, hfaults e hallows⟩
    · simp only [Lookahead.start, hstart, hclose]
    · exact ⟨hf.of_shut hshut, fun _ h => (by cases h), fun _ => ⟨rfl, rfl, hshut⟩⟩
  · refine ⟨.ok (), ⟨feed₁, none, true⟩, w₁, ?_, ?_, hw₁, trivial⟩
    · simp only [Lookahead.start, hstart]
    · exact ⟨hfeed₁, fun _ h => (by cases h), fun h => by cases h⟩

/-- After a positive answer there is a row ahead. -/
lemma hasNext_lookahead (hf : G.GovernsFeed F A Z T f) :
    G.Keeps F.lookahead (Lookahead.Tidy A Z T) (fun _ => True) (Lookahead.hasNext f) := by
  rintro ⟨feed, ahead, _ | _⟩ R w hR hs hw
  · exact ⟨_, _, w, rfl, hs, hw, G.fault_notOpen _ w⟩
  rcases ahead with _ | row
  · obtain ⟨answer, feed₁, w₁, hfetch, hfeed₁, hw₁, hallows⟩ := hf.fetch hR hs.feed hw
    refine ⟨answer.map Option.isSome, ⟨feed₁, answer.toOption.join, true⟩, w₁, ?_, ?_, hw₁, ?_⟩
    · simp only [Lookahead.hasNext, hfetch, if_true]
      cases answer <;> rfl
    · refine ⟨hfeed₁, fun row h => ?_, fun h => by cases h⟩
      rcases answer with e | found
      · cases h
      · exact hallows row h
    · rcases answer with e | found
      · exact hallows
      · trivial
  · exact ⟨.ok true, _, w, rfl, hs, hw, trivial⟩

lemma next_lookahead (hf : G.GovernsFeed F A Z T f) :
    G.Keeps F.lookahead (Lookahead.Tidy A Z T) T (Lookahead.next f) := by
  intro s R w hR hs hw
  rcases hopen : s.isOpen with _ | _
  · refine ⟨.error (notOpen nextText), s, w, ?_, hs, hw, G.fault_notOpen _ w⟩
    simp only [Lookahead.next, hopen, Bool.false_eq_true, if_false]
  obtain ⟨answer, s₁, w₁, hask, hs₁, hw₁, hallows⟩ := hf.hasNext_lookahead hR hs hw
  rcases answer with e | found
  · refine ⟨.error e, s₁, w₁, ?_, hs₁, hw₁, hallows⟩
    simp only [Lookahead.next, hopen, hask, if_true]
  rcases hahead : s₁.ahead with _ | row
  · refine ⟨.error exhausted, s₁, w₁, ?_, hs₁, hw₁, G.fault_exhausted w₁⟩
    simp only [Lookahead.next, hopen, hask, hahead, if_true]
  · refine ⟨.ok row, { s₁ with ahead := none }, w₁, ?_, ?_, hw₁, hs₁.ahead row hahead⟩
    · simp only [Lookahead.next, hopen, hask, hahead, if_true]
    · exact ⟨hs₁.feed, fun _ h => (by cases h), fun h => ⟨h, rfl, (hs₁.shut h).feed⟩⟩

lemma rewind_lookahead (hf : G.GovernsFeed F A Z T f) :
    G.Keeps F.lookahead (Lookahead.Tidy A Z T) (fun _ => True) (Lookahead.rewind f) := by
  rintro ⟨feed, ahead, _ | _⟩ R w hR hs hw
  · exact ⟨_, _, w, rfl, hs, hw, G.fault_notOpen _ w⟩
  obtain ⟨answer, feed₁, w₁, hrewind, hfeed₁, hw₁, hallows⟩ := hf.rewind hR hs.feed hw
  refine ⟨answer, ⟨feed₁, none, true⟩, w₁, ?_, ?_, hw₁, hallows⟩
  · simp only [Lookahead.rewind, hrewind, if_true]
  · exact ⟨hfeed₁, fun _ h => (by cases h), fun h => by cases h⟩

/-- A cursor over a feed is closed with its feed, or it was shut already. -/
lemma close_lookahead (hf : G.GovernsFeed F A Z T f) :
    G.Closes F.lookahead (Lookahead.Tidy A Z T) (Lookahead.Shut Z) (Lookahead.close f) := by
  rintro ⟨feed, ahead, _ | _⟩ R w hs hw
  · exact ⟨⟨feed, none, false⟩, w, rfl, ⟨rfl, rfl, (hs.shut rfl).feed⟩, hw, fun _ he => he⟩
  · obtain ⟨feed₁, w₁, hclose, hshut, hw₁, hfaults⟩ := hf.close hs.feed hw
    refine ⟨⟨feed₁, none, false⟩, w₁, ?_, ⟨rfl, rfl, hshut⟩, hw₁, hfaults⟩
    simp only [Lookahead.close, hclose, if_true]

/-- **A cursor with one row ahead obeys a regime if its feed does.** -/
theorem lookahead (hf : G.GovernsFeed F A Z T f) :
    G.Governs F.lookahead (Lookahead.Tidy A Z T) (Lookahead.Shut Z) T (Lookahead.cursor f) where
  start := hf.start_lookahead
  hasNext := hf.hasNext_lookahead
  next := hf.next_lookahead
  rewind := hf.rewind_lookahead
  close := hf.close_lookahead
  of_shut {s} hs :=
    ⟨hf.of_shut hs.feed, fun _ h => (by rw [hs.empty] at h; cases h), fun _ => hs⟩

end Regime.GovernsFeed

namespace Regime

variable {G : Regime W} {F : Footprint σ} {A Z : σ → Prop} {T : Row → Prop}

/-! ## Rows in memory and filters -/

lemma governsFeed_rows {rows : List Row} (hrows : ∀ row ∈ rows, T row) :
    G.GovernsFeed (.nothing ℕ) (fun _ => True) (fun _ => True) T (RowList.feed rows) where
  start _ _ w _ _ hw := ⟨.ok (), 0, w, rfl, trivial, hw, trivial⟩
  fetch := by
    intro position R w hR _ hw
    rcases hrow : rows[position]? with _ | row
    · refine ⟨.ok none, position, w, ?_, trivial, hw, fun _ h => by cases h⟩
      simp only [RowList.feed, RowList.fetch, hrow]
    · refine ⟨.ok (some row), position + 1, w, ?_, trivial, hw, fun row' h => ?_⟩
      · simp only [RowList.feed, RowList.fetch, hrow]
      · cases h
        exact hrows row (List.mem_of_getElem? hrow)
  rewind _ _ w _ _ hw := ⟨.ok (), 0, w, rfl, trivial, hw, trivial⟩
  close _ _ w _ hw := ⟨rows.length, w, rfl, trivial, hw, fun _ he => he⟩
  of_shut _ := trivial

lemma Governs.filter {c : Cursor W σ} (hc : G.Governs F A Z T c) (fin : c.Finite)
    {test : Row → Except Failure Bool}
    (htest : ∀ row, T row → G.Sanctions (fun _ => True) (test row)) :
    G.GovernsFeed F A Z T (Filter.feed test c fin) where
  start := hc.start
  fetch := hc.find fin htest
  rewind := hc.rewind
  close := hc.close
  of_shut := hc.of_shut

end Regime

/-! ## Joins -/

/-- The children of a join are in order, and the left row in hand has a property. -/
structure JoinState.Tidy (A : σ → Prop) (B : τ → Prop) (T : Row → Prop) (s : JoinState σ τ) :
    Prop where
  left : A s.left
  right : B s.right
  current : ∀ row ∈ s.current, T row

/-- The children of a join are shut, and it has no left row in hand. -/
structure JoinState.Shut (Y : σ → Prop) (Z : τ → Prop) (s : JoinState σ τ) : Prop where
  left : Y s.left
  right : Z s.right
  empty : s.current = none

/-- Two calls in turn, the first on the left child and the second, if the first one succeeds, on the
right child.  In this way a join is opened and taken back. -/
def JoinState.inTurn (first : Call W σ Unit) (second : Call W τ Unit) :
    Call W (JoinState σ τ) Unit := fun s w =>
  match first s.left w with
  | (.error e, left, w) => (.error e, { s with left := left }, w)
  | (.ok (), left, w) =>
    match second s.right w with
    | (.error e, right, w) => (.error e, ⟨left, right, s.current⟩, w)
    | (.ok (), right, w) => (.ok (), ⟨left, right, none⟩, w)

namespace Regime

variable {G : Regime W}

section

variable {F : Footprint σ} {F' : Footprint τ} {A : σ → Prop} {B : τ → Prop}

/-- What a call on the left child does, with what the right one holds set aside. -/
lemma Keeps.left {T : α → Prop} {call : Call W σ α} (h : G.Keeps F A T call) (t : τ)
    {R : Multiset (Handle Page)} (hR : (F.join F').need + R.card ≤ G.limit) {s : σ} {w : W}
    (hs : A s) (hw : G.Good (F.held s + F'.held t + R) w) :
    ∃ answer s' w', call s w = (answer, s', w') ∧ A s' ∧ G.Good (F.held s' + F'.held t + R) w' ∧
      G.Allows T w' answer := by
  have hcard := F'.card_held t
  have hframe : F.need + (F'.held t + R).card ≤ G.limit := by
    rw [Multiset.card_add]
    simp only [Footprint.join] at hR
    omega
  rw [Multiset.add_assoc] at hw
  obtain ⟨answer, s', w', heq, hs', hw', hallows⟩ := h hframe hs hw
  exact ⟨answer, s', w', heq, hs', by rwa [Multiset.add_assoc], hallows⟩

/-- What a call on the right child does, with what the left one holds set aside. -/
lemma Keeps.right {T : α → Prop} {call : Call W τ α} (h : G.Keeps F' B T call) (s : σ)
    {R : Multiset (Handle Page)} (hR : (F.join F').need + R.card ≤ G.limit) {t : τ} {w : W}
    (ht : B t) (hw : G.Good (F.held s + F'.held t + R) w) :
    ∃ answer t' w', call t w = (answer, t', w') ∧ B t' ∧ G.Good (F.held s + F'.held t' + R) w' ∧
      G.Allows T w' answer := by
  have hcard := F.card_held s
  have hframe : F'.need + (F.held s + R).card ≤ G.limit := by
    rw [Multiset.card_add]
    simp only [Footprint.join] at hR
    omega
  have hsum : ∀ t, F.held s + F'.held t + R = F'.held t + (F.held s + R) := fun t => by
    rw [Multiset.add_comm (F.held s), Multiset.add_assoc]
  rw [hsum] at hw
  obtain ⟨answer, t', w', heq, ht', hw', hallows⟩ := h hframe ht hw
  exact ⟨answer, t', w', heq, ht', by rwa [hsum], hallows⟩

/-- Two calls in turn keep a join in order if each of them keeps its child in order. -/
lemma Keeps.inTurn {TL : Row → Prop} {first : Call W σ Unit} {second : Call W τ Unit}
    (hl : G.Keeps F A (fun _ => True) first) (hr : G.Keeps F' B (fun _ => True) second) :
    G.Keeps (F.join F') (JoinState.Tidy A B TL) (fun _ => True)
      (JoinState.inTurn first second) := by
  rintro ⟨left, right, current⟩ R w hR ⟨hleft, hright, hcurrent⟩ hw
  obtain ⟨answer, left₁, w₁, hfirst, hleft₁, hw₁, hallows⟩ := hl.left right hR hleft hw
  rcases answer with e | ⟨⟩
  · refine ⟨.error e, ⟨left₁, right, current⟩, w₁, ?_, ⟨hleft₁, hright, hcurrent⟩, hw₁, hallows⟩
    simp only [JoinState.inTurn, hfirst]
  obtain ⟨answer, right₁, w₂, hsecond, hright₁, hw₂, hallows⟩ := hr.right left₁ hR hright hw₁
  rcases answer with e | ⟨⟩
  · refine ⟨.error e, ⟨left₁, right₁, current⟩, w₂, ?_, ⟨hleft₁, hright₁, hcurrent⟩, hw₂, hallows⟩
    simp only [JoinState.inTurn, hfirst, hsecond]
  · refine ⟨.ok (), ⟨left₁, right₁, none⟩, w₂, ?_, ⟨hleft₁, hright₁, fun _ h => by cases h⟩, hw₂,
      trivial⟩
    simp only [JoinState.inTurn, hfirst, hsecond]

/-- Closing the children one after the other. -/
lemma Closes.join {Y : σ → Prop} {Z : τ → Prop} {TL : Row → Prop} {j : Join W σ τ}
    (hl : G.Closes F A Y j.left.close) (hr : G.Closes F' B Z j.right.close) :
    G.Closes (F.join F') (JoinState.Tidy A B TL) (JoinState.Shut Y Z) j.close := by
  rintro ⟨left, right, current⟩ R w ⟨hleft, hright, -⟩ hw
  have hwl : G.Good (F.held left + (F'.held right + R)) w := by
    rwa [← Multiset.add_assoc]
  obtain ⟨left', w₁, hcloseL, hshutL, hw₁, hfaultsL⟩ := hl hleft hwl
  have hwr : G.Good (F'.held right + (F.held left' + R)) w₁ := by
    rwa [← Multiset.add_assoc, Multiset.add_comm (F'.held right), Multiset.add_assoc]
  obtain ⟨right', w₂, hcloseR, hshutR, hw₂, hfaultsR⟩ := hr hright hwr
  refine ⟨⟨left', right', none⟩, w₂, ?_, ⟨hshutL, hshutR, rfl⟩, ?_,
    fun e he => hfaultsR e (hfaultsL e he)⟩
  · simp only [Join.close, hcloseL, hcloseR]
  · show G.Good (F.held left' + F'.held right' + R) w₂
    rwa [Multiset.add_comm (F.held left'), Multiset.add_assoc]

variable {Y : σ → Prop} {Z : τ → Prop} {TL TR T : Row → Prop} {j : Join W σ τ}

/-- Looking for a match of a left row, if doing without one is in order from this state of the left
child. -/
lemma Governs.search (hr : G.Governs F' B Z TR j.right)
    (htest : ∀ l r, TL l → TR r → G.Sanctions (fun _ => True) (j.test l r))
    (happend : ∀ l r, TL l → TR r → G.Sanctions T (Row.append j.schema l r))
    {R : Multiset (Handle Page)} (hR : (F.join F').need + R.card ≤ G.limit) {left : σ}
    (hleft : A left)
    (hfetch : ∀ right w, B right → G.Good (F.held left + F'.held right + R) w →
      ∃ answer s' w', j.fetch ⟨left, right, none⟩ w = (answer, s', w') ∧
        JoinState.Tidy A B TL s' ∧ G.Good ((F.join F').held s' + R) w' ∧
        G.Allows (fun found => ∀ row ∈ found, T row) w' answer)
    {l : Row} (hl : TL l) {right : τ} {w : W} (hright : B right)
    (hw : G.Good (F.held left + F'.held right + R) w) :
    ∃ answer s' w', j.search l left right w = (answer, s', w') ∧
      JoinState.Tidy A B TL s' ∧ G.Good ((F.join F').held s' + R) w' ∧
      G.Allows (fun found => ∀ row ∈ found, T row) w' answer := by
  have hinhand : ∀ row ∈ some l, TL row := fun row h => by cases h; exact hl
  obtain ⟨answer, right₁, w₁, hfind, hright₁, hw₁, hallows⟩ :=
    (hr.find j.rightFinite (htest l · hl)).right left hR hright hw
  rcases answer with e | _ | r
  · exact ⟨_, _, w₁, Join.search_of_error hfind, ⟨hleft, hright₁, hinhand⟩, hw₁, hallows⟩
  · obtain ⟨answer, right₂, w₂, hrewind, hright₂, hw₂, hallows⟩ :=
      hr.rewind.right left hR hright₁ hw₁
    rcases answer with e | ⟨⟩
    · exact ⟨_, _, w₂, Join.search_of_rewind_error hfind hrewind, ⟨hleft, hright₂, hinhand⟩, hw₂,
        hallows⟩
    · rw [Join.search_of_none hfind hrewind]
      exact hfetch right₂ w₂ hright₂ hw₂
  · refine ⟨_, _, w₁, Join.search_of_some hfind, ⟨hleft, hright₁, hinhand⟩, hw₁, ?_⟩
    have hpair := happend l r hl (hallows r rfl) w₁
    rcases hrow : Row.append j.schema l r with e | row <;> rw [hrow] at hpair
    · exact hpair
    · intro row' h
      cases h
      exact hpair

/-- Without a left row in hand the left child is pulled, so the induction is on its pulls. -/
lemma Governs.fetch_none (hl : G.Governs F A Y TL j.left) (hr : G.Governs F' B Z TR j.right)
    (htest : ∀ l r, TL l → TR r → G.Sanctions (fun _ => True) (j.test l r))
    (happend : ∀ l r, TL l → TR r → G.Sanctions T (Row.append j.schema l r))
    {R : Multiset (Handle Page)} (hR : (F.join F').need + R.card ≤ G.limit) {left : σ}
    (hleft : A left) (right : τ) (w : W) (hright : B right)
    (hw : G.Good (F.held left + F'.held right + R) w) :
    ∃ answer s' w', j.fetch ⟨left, right, none⟩ w = (answer, s', w') ∧
      JoinState.Tidy A B TL s' ∧ G.Good ((F.join F').held s' + R) w' ∧
      G.Allows (fun found => ∀ row ∈ found, T row) w' answer := by
  induction j.leftFinite.wf.apply left generalizing right w with
  | intro left _ ih =>
    have hempty : ∀ row ∈ (none : Option Row), TL row := fun _ h => by cases h
    obtain ⟨answer, left₁, w₁, hpull, hleft₁, hw₁, hallows⟩ := hl.pull.left right hR hleft hw
    rcases answer with e | _ | l
    · refine ⟨.error e, ⟨left₁, right, none⟩, w₁, ?_, ⟨hleft₁, hright, hempty⟩, hw₁, hallows⟩
      simp only [Join.fetch, hpull]
    · refine ⟨.ok none, ⟨left₁, right, none⟩, w₁, ?_, ⟨hleft₁, hright, hempty⟩, hw₁,
        fun _ h => by cases h⟩
      simp only [Join.fetch, hpull]
    · obtain ⟨answer, s', w', hsearch, hpost⟩ := hr.search htest happend hR hleft₁
        (ih left₁ ⟨w, l, w₁, hpull⟩ hleft₁) (hallows l rfl) hright hw₁
      refine ⟨answer, s', w', ?_, hpost⟩
      simp only [Join.fetch, hpull, hsearch]

/-- **A join obeys a regime if its children do.** -/
lemma Governs.join (hl : G.Governs F A Y TL j.left) (hr : G.Governs F' B Z TR j.right)
    (htest : ∀ l r, TL l → TR r → G.Sanctions (fun _ => True) (j.test l r))
    (happend : ∀ l r, TL l → TR r → G.Sanctions T (Row.append j.schema l r)) :
    G.GovernsFeed (F.join F') (JoinState.Tidy A B TL) (JoinState.Shut Y Z) T j.feed where
  start := hl.start.inTurn hr.start
  fetch := by
    rintro ⟨left, right, _ | l⟩ R w hR ⟨hleft, hright, hcurrent⟩ hw
    · exact hl.fetch_none hr htest happend hR hleft right w hright hw
    · exact hr.search htest happend hR hleft (hl.fetch_none hr htest happend hR hleft)
        (hcurrent l rfl) hright hw
  rewind := hl.rewind.inTurn hr.rewind
  close := hl.close.join hr.close
  of_shut {s} hs :=
    ⟨hl.of_shut hs.left, hr.of_shut hs.right, fun _ h => by rw [hs.empty] at h; cases h⟩

end

end Regime

/-! ## Aggregations -/

/-- The child of an aggregation is in order, and the results have a property. -/
structure AggregationState.Tidy (A : σ → Prop) (T : Row → Prop) (s : AggregationState σ) :
    Prop where
  child : A s.child
  results : ∀ made ∈ s.results, ∀ row ∈ made.1, T row

/-- The child of an aggregation is shut, and there are no results. -/
structure AggregationState.Shut (Z : σ → Prop) (s : AggregationState σ) : Prop where
  child : Z s.child
  empty : s.results = none

/-- What an aggregation computes from rows of a schema is as it should be: there is an invariant of
its aggregator under which it takes in the rows and makes the results. -/
structure Regime.Aggregates (G : Regime W) (a : Aggregation) (input : Schema)
    (B : Aggregator → Prop) : Prop where
  aggregator : G.Sanctions B (liftError a.aggregator)
  merge : ∀ x row, B x → G.Conforms input row → G.Sanctions B (x.merge row)
  results : ∀ x, B x → G.Sanctions (fun rows => ∀ row ∈ rows, G.Conforms a.schema row) x.results

namespace Regime

variable {G : Regime W} {F : Footprint σ} {A Z : σ → Prop} {T : Row → Prop}

section

variable {c : Cursor W σ} {a : Aggregation} {input : Schema} {B : Aggregator → Prop}

/-- Opening an aggregation opens its child, makes an aggregator, takes in all rows, and makes the
results: each of these steps can fail, and leaves things in order if it does. -/
lemma Governs.start_aggregation (ha : G.Aggregates a input B)
    (hc : G.Governs F A Z (G.Conforms input) c) (fin : c.Finite) (order : Arrangement W) :
    G.Keeps F.aggregation (AggregationState.Tidy A (G.Conforms a.schema)) (fun _ => True)
      (a.feed order c fin).start := by
  rintro ⟨child, results⟩ R w hR ⟨hchild, hresults⟩ hw
  obtain ⟨answer, child₁, w₁, hstart, hchild₁, hw₁, hallows⟩ := hc.start hR hchild hw
  rcases answer with e | ⟨⟩
  · refine ⟨.error e, ⟨child₁, results⟩, w₁, ?_, ⟨hchild₁, hresults⟩, hw₁, hallows⟩
    simp only [Aggregation.feed, Aggregation.start, hstart]
  have hmake := ha.aggregator w₁
  rcases hinitial : a.aggregator with e | initial <;> rw [hinitial] at hmake
  · refine ⟨.error (.error e), ⟨child₁, results⟩, w₁, ?_, ⟨hchild₁, hresults⟩, hw₁, hmake⟩
    simp only [Aggregation.feed, Aggregation.start, hstart, hinitial]
  obtain ⟨answer, child₂, w₂, hfold, hchild₂, hw₂, hallows⟩ :=
    hc.fold fin ha.merge hmake hR hchild₁ hw₁
  rcases answer with e | final
  · refine ⟨.error e, ⟨child₂, results⟩, w₂, ?_, ⟨hchild₂, hresults⟩, hw₂, hallows⟩
    simp only [Aggregation.feed, Aggregation.start, hstart, hinitial, hfold]
  have hlist := ha.results final hallows w₂
  rcases hrows : final.results with e | rows <;> rw [hrows] at hlist
  · refine ⟨.error e, ⟨child₂, results⟩, w₂, ?_, ⟨hchild₂, hresults⟩, hw₂, hlist⟩
    simp only [Aggregation.feed, Aggregation.start, hstart, hinitial, hfold, hrows]
  · refine ⟨.ok (), ⟨child₂, some (order.apply w₂ rows, 0)⟩, w₂, ?_, ⟨hchild₂, ?_⟩, hw₂, trivial⟩
    · simp only [Aggregation.feed, Aggregation.start, hstart, hinitial, hfold, hrows]
    · intro made hmade row hrow
      cases hmade
      exact hlist row ((order.perm w₂ rows).mem_iff.1 hrow)

/-- The results are handed out without a call on the child. -/
lemma keeps_fetch_aggregation (a : Aggregation) (c : Cursor W σ) (fin : c.Finite)
    (order : Arrangement W) :
    G.Keeps F.aggregation (AggregationState.Tidy A T) (fun found => ∀ row ∈ found, T row)
      (a.feed order c fin).fetch := by
  rintro ⟨child, _ | ⟨rows, position⟩⟩ R w hR ⟨hchild, hresults⟩ hw
  · exact ⟨.ok none, _, w, rfl, ⟨hchild, hresults⟩, hw, fun _ h => by cases h⟩
  have hrows : ∀ row ∈ rows, T row := hresults (rows, position) rfl
  rcases hrow : rows[position]? with _ | row
  · refine ⟨.ok none, ⟨child, some (rows, position)⟩, w, ?_, ⟨hchild, hresults⟩, hw,
      fun _ h => by cases h⟩
    simp only [Aggregation.feed, Aggregation.fetch, RowList.fetch, hrow]
  · refine ⟨.ok (some row), ⟨child, some (rows, position + 1)⟩, w, ?_, ⟨hchild, ?_⟩, hw, ?_⟩
    · simp only [Aggregation.feed, Aggregation.fetch, RowList.fetch, hrow]
    · intro made hmade
      cases hmade
      exact hrows
    · intro row' h
      cases h
      exact hrows row (List.mem_of_getElem? hrow)

lemma Governs.aggregation (ha : G.Aggregates a input B)
    (hc : G.Governs F A Z (G.Conforms input) c) (fin : c.Finite) (order : Arrangement W) :
    G.GovernsFeed F.aggregation (AggregationState.Tidy A (G.Conforms a.schema))
      (AggregationState.Shut Z) (G.Conforms a.schema) (a.feed order c fin) where
  start := hc.start_aggregation ha fin order
  fetch := keeps_fetch_aggregation a c fin order
  rewind := by
    rintro ⟨child, results⟩ R w hR ⟨hchild, hresults⟩ hw
    refine ⟨.ok (), ⟨child, results.map fun made => (made.1, 0)⟩, w, rfl, ⟨hchild, ?_⟩, hw,
      trivial⟩
    intro made hmade
    obtain ⟨before, hbefore, rfl⟩ := Option.map_eq_some_iff.1 hmade
    exact hresults before hbefore
  close := by
    rintro ⟨child, results⟩ R w ⟨hchild, -⟩ hw
    obtain ⟨child', w', hclose, hshut, hw', hfaults⟩ := hc.close hchild hw
    refine ⟨⟨child', none⟩, w', ?_, ⟨hshut, rfl⟩, hw', hfaults⟩
    simp only [Aggregation.feed, Aggregation.close, hclose]
  of_shut {s} hs := ⟨hc.of_shut hs.child, fun _ h => by rw [hs.empty] at h; cases h⟩

end

end Regime

end RowStore
