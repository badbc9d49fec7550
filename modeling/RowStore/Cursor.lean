import RowStore.Row

/-!
# Cursors

A cursor hands out rows one at a time.  It is described by what its five calls do to its own state
and to a world: `start`, `hasNext`, `next`, `rewind` and `close`.  A call that can fail answers
`Except Failure`, and the state and the world go on from where the failure left them.

`Cursor.pull` is the step that every consumer repeats: ask for a row, then take it.  A cursor is
*finite* if pulls cannot go on for ever.  For a finite cursor the loops of the consumers are
defined by well-founded recursion: `Cursor.find` pulls up to the first row that passes a test,
`Cursor.fold` pulls all rows and folds them into an accumulator, and `Cursor.drain` collects them.
-/

namespace RowStore

/-- What a call does that can fail: an answer, and the state and the world after it. -/
abbrev Call (W σ α : Type) := σ → W → Except Failure α × σ × W

/-- The names of the calls, as errors print them. -/
def hasNextText : String := "has_next"

@[inherit_doc hasNextText]
def nextText : String := "next"

@[inherit_doc hasNextText]
def rewindText : String := "rewind"

/-- The failure of a call on a cursor that is not open. -/
def notOpen (call : String) : Failure := .error (.notOpen call)

/-- The failure of asking an exhausted cursor for a row. -/
def exhausted : Failure := .error .exhausted

/-- The calls of a cursor with states of type `σ` in a world of type `W`. -/
structure Cursor (W σ : Type) where
  /-- Makes the cursor ready to hand out its first row. -/
  start : Call W σ Unit
  /-- Whether there is a row to take. -/
  hasNext : Call W σ Bool
  /-- Takes a row. -/
  next : Call W σ Row
  /-- Goes back to the first row. -/
  rewind : Call W σ Unit
  /-- Gives everything back. -/
  close : σ → W → σ × W

namespace Cursor

variable {W σ β : Type}

/-! ## Pulling -/

/-- Asks for a row and takes it if there is one. -/
def pull (c : Cursor W σ) : Call W σ (Option Row) := fun s w =>
  match c.hasNext s w with
  | (.error e, s, w) => (.error e, s, w)
  | (.ok false, s, w) => (.ok none, s, w)
  | (.ok true, s, w) =>
    match c.next s w with
    | (.error e, s, w) => (.error e, s, w)
    | (.ok row, s, w) => (.ok (some row), s, w)

/-- A state that a pull leaves behind when it takes a row. -/
def Yields (c : Cursor W σ) (after before : σ) : Prop :=
  ∃ w row w', c.pull before w = (.ok (some row), after, w')

/-- Pulls cannot take rows for ever, whatever happens to the world in between. -/
structure Finite (c : Cursor W σ) : Prop where
  wf : WellFounded c.Yields

/-! ## Loops -/

/-- Pulls up to the first row that passes a test. -/
def find (c : Cursor W σ) (fin : c.Finite) (test : Row → Except Failure Bool) (s : σ) (w : W) :
    Except Failure (Option Row) × σ × W :=
  match _h : c.pull s w with
  | (.error e, s, w) => (.error e, s, w)
  | (.ok none, s, w) => (.ok none, s, w)
  | (.ok (some row), s', w') =>
    match test row with
    | .error e => (.error e, s', w')
    | .ok true => (.ok (some row), s', w')
    | .ok false => find c fin test s' w'
termination_by fin.wf.wrap s
decreasing_by exact ⟨w, row, w', _h⟩

/-- Pulls all rows and folds them into an accumulator, up to the first failure. -/
def fold (c : Cursor W σ) (fin : c.Finite) (f : β → Row → Except Failure β) (b : β) (s : σ)
    (w : W) : Except Failure β × σ × W :=
  match _h : c.pull s w with
  | (.error e, s, w) => (.error e, s, w)
  | (.ok none, s, w) => (.ok b, s, w)
  | (.ok (some row), s', w') =>
    match f b row with
    | .error e => (.error e, s', w')
    | .ok b => fold c fin f b s' w'
termination_by fin.wf.wrap s
decreasing_by exact ⟨w, row, w', _h⟩

/-- Pulls all rows.  A failure discards those that were pulled. -/
def drain (c : Cursor W σ) (fin : c.Finite) (s : σ) (w : W) :
    Except Failure (List Row) × σ × W :=
  match c.fold fin (fun rows row => .ok (row :: rows)) [] s w with
  | (.error e, s, w) => (.error e, s, w)
  | (.ok rows, s, w) => (.ok rows.reverse, s, w)

/-! ## What a loop does after a pull -/

section

variable {c : Cursor W σ} {fin : c.Finite} {s s' : σ} {w w' : W}

theorem find_of_error {test : Row → Except Failure Bool} {e : Failure}
    (h : c.pull s w = (.error e, s', w')) : c.find fin test s w = (.error e, s', w') := by
  rw [find]
  split <;> simp_all

theorem find_of_none {test : Row → Except Failure Bool} (h : c.pull s w = (.ok none, s', w')) :
    c.find fin test s w = (.ok none, s', w') := by
  rw [find]
  split <;> simp_all

theorem find_of_some {test : Row → Except Failure Bool} {row : Row}
    (h : c.pull s w = (.ok (some row), s', w')) :
    c.find fin test s w =
      match test row with
      | .error e => (.error e, s', w')
      | .ok true => (.ok (some row), s', w')
      | .ok false => c.find fin test s' w' := by
  rw [find]
  split <;> simp_all

theorem fold_of_error {f : β → Row → Except Failure β} {b : β} {e : Failure}
    (h : c.pull s w = (.error e, s', w')) : c.fold fin f b s w = (.error e, s', w') := by
  rw [fold]
  split <;> simp_all

theorem fold_of_none {f : β → Row → Except Failure β} {b : β}
    (h : c.pull s w = (.ok none, s', w')) : c.fold fin f b s w = (.ok b, s', w') := by
  rw [fold]
  split <;> simp_all

theorem fold_of_some {f : β → Row → Except Failure β} {b : β} {row : Row}
    (h : c.pull s w = (.ok (some row), s', w')) :
    c.fold fin f b s w =
      match f b row with
      | .error e => (.error e, s', w')
      | .ok b' => c.fold fin f b' s' w' := by
  rw [fold]
  split <;> simp_all

end

/-! ## What a pull consists of -/

/-- A pull that takes a row is a positive answer followed by the row. -/
theorem pull_eq_some_iff {c : Cursor W σ} {s s' : σ} {w w' : W} {row : Row} :
    c.pull s w = (.ok (some row), s', w') ↔
      ∃ s₁ w₁, c.hasNext s w = (.ok true, s₁, w₁) ∧ c.next s₁ w₁ = (.ok row, s', w') := by
  unfold pull
  split
  · next h => simp [h]
  · next h => simp [h]
  · next s₁ w₁ h =>
    constructor
    · intro hp
      split at hp
      · cases hp
      · next hn =>
        cases hp
        exact ⟨s₁, w₁, h, hn⟩
    · rintro ⟨s₂, w₂, h₂, hn⟩
      rw [h] at h₂
      cases h₂
      rw [hn]

end Cursor

end RowStore
