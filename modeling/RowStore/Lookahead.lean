import RowStore.Cursor

/-!
# One row ahead

Most cursors only know how to produce their next row.  A `Feed` describes that: how to make ready,
how to produce a row or say that there is none, how to go back and how to give everything back.
`Lookahead.cursor` makes a cursor of any feed by keeping one row ahead, so that it can be asked
repeatedly whether there is a row and produces it only once.

The cursor knows whether it is open.  While it is not, it refuses to answer and leaves the feed
alone.  When the feed cannot be made ready it is given back at once, since it may hold something
already.
-/

namespace RowStore

/-- What produces the rows of a cursor. -/
structure Feed (W σ : Type) where
  /-- Makes the feed ready. -/
  start : Call W σ Unit
  /-- Produces the next row, or says that there is none. -/
  fetch : Call W σ (Option Row)
  /-- Goes back to the first row. -/
  rewind : Call W σ Unit
  /-- Gives everything back. -/
  close : σ → W → σ × W

/-- A feed can leave a state behind when it produces a row. -/
def Feed.Yields {W σ : Type} (f : Feed W σ) (after before : σ) : Prop :=
  ∃ w row w', f.fetch before w = (.ok (some row), after, w')

/-- A feed cannot produce rows for ever. -/
structure Feed.Finite {W σ : Type} (f : Feed W σ) : Prop where
  wf : WellFounded f.Yields

/-- The state of a cursor over a feed: the feed's own, the row ahead, and whether the cursor is
open. -/
structure Lookahead (σ : Type) where
  feed : σ
  ahead : Option Row
  isOpen : Bool

namespace Lookahead

variable {W σ : Type}

/-- The cursor that was never opened. -/
def closed (s : σ) : Lookahead σ := ⟨s, none, false⟩

/-- Opens the cursor; a feed that fails to get ready is given back. -/
def start (f : Feed W σ) : Call W (Lookahead σ) Unit := fun s w =>
  match f.start s.feed w with
  | (.ok (), feed, w) => (.ok (), ⟨feed, none, true⟩, w)
  | (.error e, feed, w) =>
    let (feed, w) := f.close feed w
    (.error e, ⟨feed, none, false⟩, w)

/-- Produces a row ahead if there is none yet, and says whether there is one. -/
def hasNext (f : Feed W σ) : Call W (Lookahead σ) Bool := fun s w =>
  if s.isOpen then
    match s.ahead with
    | some _ => (.ok true, s, w)
    | none =>
      match f.fetch s.feed w with
      | (.error e, feed, w) => (.error e, { s with feed := feed }, w)
      | (.ok ahead, feed, w) => (.ok ahead.isSome, { s with feed := feed, ahead := ahead }, w)
  else (.error (notOpen hasNextText), s, w)

/-- Hands the row ahead out. -/
def next (f : Feed W σ) : Call W (Lookahead σ) Row := fun s w =>
  if s.isOpen then
    match hasNext f s w with
    | (.error e, s, w) => (.error e, s, w)
    | (.ok _, s, w) =>
      match s.ahead with
      | some row => (.ok row, { s with ahead := none }, w)
      | none => (.error exhausted, s, w)
  else (.error (notOpen nextText), s, w)

/-- Drops the row ahead and takes the feed back to its first row. -/
def rewind (f : Feed W σ) : Call W (Lookahead σ) Unit := fun s w =>
  if s.isOpen then
    let (answer, feed, w) := f.rewind s.feed w
    (answer, ⟨feed, none, true⟩, w)
  else (.error (notOpen rewindText), s, w)

/-- Closes the cursor, and the feed if the cursor was open. -/
def close (f : Feed W σ) (s : Lookahead σ) (w : W) : Lookahead σ × W :=
  if s.isOpen then
    let (feed, w) := f.close s.feed w
    (⟨feed, none, false⟩, w)
  else (⟨s.feed, none, false⟩, w)

/-- The cursor over a feed. -/
def cursor (f : Feed W σ) : Cursor W (Lookahead σ) where
  start := start f
  hasNext := hasNext f
  next := next f
  rewind := rewind f
  close := close f

/-- A cursor is open when its feed is ready. -/
theorem start_of_ready {f : Feed W σ} {s : Lookahead σ} {feed : σ} {w w' : W}
    (h : f.start s.feed w = (.ok (), feed, w')) :
    (cursor f).start s w = (.ok (), ⟨feed, none, true⟩, w') := by
  simp only [cursor, start, h]

/-- A cursor without a row ahead pulls what its feed fetches. -/
theorem pull_of_fetch {f : Feed W σ} {feed feed' : σ} {w w' : W}
    {answer : Except Failure (Option Row)} (h : f.fetch feed w = (answer, feed', w')) :
    (cursor f).pull ⟨feed, none, true⟩ w = (answer, ⟨feed', none, true⟩, w') := by
  rcases answer with e | _ | row <;> simp [Cursor.pull, cursor, hasNext, next, h]

/-- A cursor without a row ahead asks its feed for one. -/
theorem hasNext_of_fetch {f : Feed W σ} {feed feed' : σ} {w w' : W} {row : Row}
    (h : f.fetch feed w = (.ok (some row), feed', w')) :
    hasNext f ⟨feed, none, true⟩ w = (.ok true, ⟨feed', some row, true⟩, w') := by
  simp [hasNext, h]

/-- A cursor without a row ahead hands out what its feed fetches. -/
theorem next_of_fetch {f : Feed W σ} {feed feed' : σ} {w w' : W} {found : Option Row}
    (h : f.fetch feed w = (.ok found, feed', w')) :
    (cursor f).next ⟨feed, none, true⟩ w =
      ((found.map .ok).getD (.error exhausted), ⟨feed', none, true⟩, w') := by
  cases found <;> simp [cursor, next, hasNext, h]

/-! ## Finiteness -/

/-- A pull takes the row that was ahead, or the one that the feed produces. -/
theorem yields_cursor {f : Feed W σ} {after before : Lookahead σ}
    (h : (cursor f).Yields after before) :
    after.ahead = none ∧
      (before.ahead.isSome ∧ after.feed = before.feed ∨ f.Yields after.feed before.feed) := by
  obtain ⟨w, row, w', h⟩ := h
  obtain ⟨s₁, w₁, h1, h2⟩ := Cursor.pull_eq_some_iff.1 h
  simp only [cursor, hasNext] at h1
  split at h1
  · next hopen =>
    split at h1
    · next r hr =>
      cases h1
      simp only [cursor, next, hasNext, hopen, hr, if_true] at h2
      cases h2
      exact ⟨rfl, .inl ⟨by simp [hr], rfl⟩⟩
    · next hr =>
      split at h1
      · cases h1
      · next ahead feed w₂ hf =>
        obtain _ | r := ahead
        · simp at h1
        · cases h1
          simp only [cursor, next, hasNext, hopen, if_true] at h2
          cases h2
          exact ⟨rfl, .inr ⟨w, _, _, hf⟩⟩
  · cases h1

/-- A cursor over a finite feed is finite. -/
theorem finite_cursor {f : Feed W σ} (hf : f.Finite) : (cursor f).Finite where
  wf := by
    have key : ∀ feed : σ, ∀ s : Lookahead σ, s.feed = feed → s.ahead = none →
        Acc (cursor f).Yields s := by
      intro feed
      induction hf.wf.apply feed with
      | intro feed _ ih =>
        intro s hs hnone
        refine Acc.intro s fun t ht => ?_
        obtain ⟨htnone, h | h⟩ := yields_cursor ht
        · simp [hnone] at h
        · exact ih t.feed (hs ▸ h) t rfl htnone
    refine ⟨fun s => Acc.intro s fun t ht => ?_⟩
    exact key t.feed t rfl (yields_cursor ht).1

end Lookahead

end RowStore
