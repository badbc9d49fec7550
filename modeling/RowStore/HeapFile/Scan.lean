import RowStore.Cursor
import RowStore.Storage

/-!
# Scanning a heap file

A scan hands out the rows of a heap file in the order of pages and slots.  It reads no file itself:
it requests one page after the other from the world it runs in, for reading only, and keeps the
handle of the page it is on until it moves past its last row.  The number of pages is looked up
when the scan is opened and does not change after that.

A page is given back before the next one is requested, and the next page counts as visited only
once its request succeeds; so a scan never holds two pages, and a request that failed is repeated
when the scan is asked again.
-/

namespace RowStore

/-- Where an open scan stands: the number of pages of the file, the page to request next, the page
it is on with the rows still to come from it, and the row that is ready to be taken. -/
structure ScanProgress where
  pageCount : Nat
  nextPage : Nat
  current : Option (Handle Page × List Row)
  ahead : Option Row

/-- A scan of a heap file, which is open if it has made progress. -/
structure FileScan where
  file : HeapFile
  progress : Option ScanProgress

namespace ScanProgress

/-- The start of a scan of so many pages. -/
def ofPages (pageCount : Nat) : ScanProgress := ⟨pageCount, 0, none, none⟩

/-- The page that is held. -/
def handle? (p : ScanProgress) : Option (Handle Page) := p.current.map Prod.fst

variable {W : Type} [Storage W]

/-- Gives the page back that is held. -/
def letGo (p : ScanProgress) (w : W) : W :=
  match p.current with
  | some (h, _) => Storage.release h w
  | none => w

/-- Makes the next row ready, if there is one. -/
def advance (file : HeapFile) (p : ScanProgress) (w : W) : Except Error Unit × ScanProgress × W :=
  match p.current with
  | some (h, row :: rest) => (.ok (), { p with current := some (h, rest), ahead := some row }, w)
  | _ =>
    let w := p.letGo w
    if p.nextPage < p.pageCount then
      match Storage.request ⟨file.id, UInt32.ofNat p.nextPage⟩ .readOnly w with
      | (.error e, w) => (.error e, { p with current := none }, w)
      | (.ok h, w) =>
        advance file
          { p with nextPage := p.nextPage + 1, current := some (h, h.content.rows) } w
    else (.ok (), { p with current := none }, w)
termination_by p.pageCount - p.nextPage

/-- The rows of the page that is held are used up, or no page is held. -/
def UsedUp (p : ScanProgress) : Prop := ∀ h row rest, p.current ≠ some (h, row :: rest)

section

variable {file : HeapFile} {p : ScanProgress} {w w' : W}

theorem advance_of_row {h : Handle Page} {row : Row} {rest : List Row}
    (hcurrent : p.current = some (h, row :: rest)) :
    p.advance file w = (.ok (), { p with current := some (h, rest), ahead := some row }, w) := by
  rw [advance]
  simp only [hcurrent]

theorem advance_of_refused {e : Error} (hused : p.UsedUp) (hlt : p.nextPage < p.pageCount)
    (hrequest : Storage.request ⟨file.id, UInt32.ofNat p.nextPage⟩ .readOnly (p.letGo w) =
      (.error e, w')) :
    p.advance file w = (.error e, { p with current := none }, w') := by
  rw [advance]
  split
  · next h row rest hcurrent => exact absurd hcurrent (hused h row rest)
  · simp only [hlt, hrequest, if_true]

theorem advance_of_granted {h : Handle Page} (hused : p.UsedUp) (hlt : p.nextPage < p.pageCount)
    (hrequest : Storage.request ⟨file.id, UInt32.ofNat p.nextPage⟩ .readOnly (p.letGo w) =
      (.ok h, w')) :
    p.advance file w = advance file
      { p with nextPage := p.nextPage + 1, current := some (h, h.content.rows) } w' := by
  rw [advance]
  split
  · next h row rest hcurrent => exact absurd hcurrent (hused h row rest)
  · simp only [hlt, hrequest, if_true]

theorem advance_of_end (hused : p.UsedUp) (hge : ¬ p.nextPage < p.pageCount) :
    p.advance file w = (.ok (), { p with current := none }, p.letGo w) := by
  rw [advance]
  split
  · next h row rest hcurrent => exact absurd hcurrent (hused h row rest)
  · simp only [hge, if_false]

end

end ScanProgress

namespace FileScan

variable {W : Type} [Storage W]

/-- The scan of a file that was never opened. -/
def closed (file : HeapFile) : FileScan := ⟨file, none⟩

/-- The page that is held. -/
def handle? (s : FileScan) : Option (Handle Page) := s.progress.bind ScanProgress.handle?

/-- Gives the page back that is held. -/
def letGo (s : FileScan) (w : W) : W :=
  match s.progress with
  | some p => p.letGo w
  | none => w

/-- Opens the scan at the first page.  If the file cannot be opened, the scan stays as it is. -/
def start : Call W FileScan Unit := fun s w =>
  match Storage.pageCount s.file w with
  | .error e => (.error (.error e), s, w)
  | .ok pageCount => (.ok (), ⟨s.file, some (ScanProgress.ofPages pageCount)⟩, s.letGo w)

/-- Makes a row ready if none is, and says whether there is one. -/
def hasNext : Call W FileScan Bool := fun s w =>
  match s.progress with
  | none => (.error (notOpen hasNextText), s, w)
  | some p =>
    match p.ahead with
    | some _ => (.ok true, s, w)
    | none =>
      match p.advance s.file w with
      | (.error e, p, w) => (.error (.error e), ⟨s.file, some p⟩, w)
      | (.ok (), p, w) => (.ok p.ahead.isSome, ⟨s.file, some p⟩, w)

theorem hasNext_of_advance {file : HeapFile} {p p' : ScanProgress} {w w' : W}
    {answer : Except Error Unit} (hahead : p.ahead = none)
    (hadvance : p.advance file w = (answer, p', w')) :
    hasNext ⟨file, some p⟩ w =
      (liftError (answer.map fun _ => p'.ahead.isSome), ⟨file, some p'⟩, w') := by
  simp only [hasNext, hahead, hadvance]
  cases answer <;> rfl

/-- Hands out the row that is ready, or the next one. -/
def next : Call W FileScan Row := fun s w =>
  match hasNext s w with
  | (.error e, s, w) => (.error e, s, w)
  | (.ok _, s, w) =>
    match s.progress with
    | none => (.error exhausted, s, w)
    | some p =>
      match p.ahead with
      | none => (.error exhausted, s, w)
      | some row => (.ok row, ⟨s.file, some { p with ahead := none }⟩, w)

/-- Closes the scan. -/
def close (s : FileScan) (w : W) : FileScan × W :=
  (⟨s.file, none⟩, s.letGo w)

/-- Goes back to the first page, by closing and opening the scan. -/
def rewind : Call W FileScan Unit := fun s w =>
  match s.progress with
  | none => (.error (notOpen rewindText), s, w)
  | some _ =>
    let (s, w) := s.close w
    start s w

/-- The cursor over the rows of a heap file. -/
def cursor : Cursor W FileScan where
  start := start
  hasNext := hasNext
  next := next
  rewind := rewind
  close := close

/-- A row that is handed out was ready; otherwise the scan is left as it was found. -/
theorem next_cases {s s' : FileScan} {w w' : W} {answer : Except Failure Row}
    (h : next s w = (answer, s', w')) :
    ∃ found file progress, hasNext s w = (found, ⟨file, progress⟩, w') ∧
      ((∃ e, answer = .error e ∧ s' = ⟨file, progress⟩) ∨
        ∃ pageCount nextPage current row, answer = .ok row ∧
          progress = some ⟨pageCount, nextPage, current, some row⟩ ∧
          s' = ⟨file, some ⟨pageCount, nextPage, current, none⟩⟩) := by
  rcases hask : hasNext s w with ⟨e | found, ⟨file, progress⟩, w₁⟩ <;> rw [next, hask] at h
  · cases h
    exact ⟨_, _, _, rfl, .inl ⟨e, rfl, rfl⟩⟩
  · rcases progress with _ | ⟨pageCount, nextPage, current, _ | row⟩ <;> cases h
    · exact ⟨_, _, _, rfl, .inl ⟨exhausted, rfl, rfl⟩⟩
    · exact ⟨_, _, _, rfl, .inl ⟨exhausted, rfl, rfl⟩⟩
    · exact ⟨_, _, _, rfl, .inr ⟨_, _, _, row, rfl, rfl, rfl⟩⟩

theorem start_of_error {s : FileScan} {w : W} {e : Error}
    (h : Storage.pageCount s.file w = .error e) : start s w = (.error (.error e), s, w) := by
  simp only [start, h]

theorem start_of_ok {s : FileScan} {w : W} {pageCount : Nat}
    (h : Storage.pageCount s.file w = .ok pageCount) :
    start s w = (.ok (), ⟨s.file, some (ScanProgress.ofPages pageCount)⟩, s.letGo w) := by
  simp only [start, h]

theorem start_eq_error {s s' : FileScan} {w w' : W} {e : Failure}
    (h : start s w = (.error e, s', w')) : s' = s ∧ w' = w := by
  rw [start] at h
  split at h
  · cases h
    exact ⟨rfl, rfl⟩
  · cases h

theorem start_eq_ok {s s' : FileScan} {w w' : W} (h : start s w = (.ok (), s', w')) :
    ∃ pageCount, Storage.pageCount s.file w = .ok pageCount ∧
      s' = ⟨s.file, some (ScanProgress.ofPages pageCount)⟩ ∧ w' = s.letGo w := by
  rw [start] at h
  split at h
  · cases h
  · next pageCount hcount =>
    cases h
    exact ⟨pageCount, hcount, rfl, rfl⟩

end FileScan

/-! ## Finiteness -/

namespace ScanProgress

variable {W : Type} [Storage W]

/-- How much is left: pages to request, and rows of the page that is held. -/
def rank (p : ScanProgress) : Nat × Nat :=
  (p.pageCount - p.nextPage, ((p.current.map Prod.snd).getD []).length)

/-- Fewer pages, or as many pages and fewer rows. -/
def Before (a b : Nat × Nat) : Prop := a.1 < b.1 ∨ a.1 = b.1 ∧ a.2 < b.2

theorem wellFounded_before : WellFounded Before := by
  refine Subrelation.wf (r := Prod.Lex (· < ·) (· < ·)) ?_
    (Prod.lex Nat.lt_wfRel Nat.lt_wfRel).wf
  rintro ⟨a, b⟩ ⟨c, d⟩ (h | ⟨h, h'⟩)
  · exact Prod.Lex.left _ _ h
  · simp only at h h'
    subst h
    exact Prod.Lex.right _ h'

/-- A row that is made ready leaves less behind. -/
theorem rank_advance {file : HeapFile} {p p' : ScanProgress} {w w' : W}
    (h : p.advance file w = (.ok (), p', w')) (hnone : p.ahead = none)
    (hsome : p'.ahead.isSome) : Before p'.rank p.rank := by
  fun_induction advance file p w with
  | case1 p w hd row rest hc =>
    cases h
    simp [Before, rank, hc]
  | case2 p w _ w₁ hlt e w₂ hr => cases h
  | case3 p w _ w₁ hlt hd w₂ hr ih =>
    have hsub := ih h hnone
    simp only [Before, rank] at hsub ⊢
    omega
  | case4 p w _ w₁ hlt =>
    simp only [Prod.mk.injEq] at h
    obtain ⟨_, rfl, _⟩ := h
    simp [hnone] at hsome

end ScanProgress

namespace FileScan

variable {W : Type} [Storage W]

/-- What a pull leaves behind: the row that was ready is gone, or less is left of the file. -/
theorem yields_cursor {after before : FileScan} (h : (cursor (W := W)).Yields after before) :
    ∃ p q, before.progress = some p ∧ after.progress = some q ∧ q.ahead = none ∧
      (p.ahead.isSome ∧ q.rank = p.rank ∨ p.ahead = none ∧ ScanProgress.Before q.rank p.rank) := by
  obtain ⟨w, row, w', h⟩ := h
  obtain ⟨s₁, w₁, h1, h2⟩ := Cursor.pull_eq_some_iff.1 h
  simp only [cursor, hasNext] at h1
  split at h1
  · cases h1
  · next p hp =>
    split at h1
    · next r hr =>
      cases h1
      simp only [cursor, next, hasNext, hp, hr] at h2
      cases h2
      exact ⟨p, _, hp, rfl, rfl, .inl ⟨by simp [hr], rfl⟩⟩
    · next hr =>
      split at h1
      · cases h1
      · next q w₂ hadv =>
        simp only [Prod.mk.injEq, Except.ok.injEq] at h1
        obtain ⟨hsome, rfl, rfl⟩ := h1
        have hrank := ScanProgress.rank_advance hadv hr hsome
        obtain ⟨r, hr'⟩ := Option.isSome_iff_exists.1 hsome
        obtain ⟨pageCount, nextPage, current, ahead⟩ := q
        simp only at hr'
        subst hr'
        simp only [cursor, next, hasNext] at h2
        cases h2
        exact ⟨p, _, hp, rfl, rfl, .inr ⟨hr, hrank⟩⟩

/-- A scan hands out finitely many rows, whatever the pages hold. -/
theorem finite_cursor : (cursor (W := W)).Finite where
  wf := by
    have key : ∀ r : Nat × Nat, ∀ s : FileScan, ∀ p, s.progress = some p → p.rank = r →
        p.ahead = none → Acc (cursor (W := W)).Yields s := by
      intro r
      induction ScanProgress.wellFounded_before.apply r with
      | intro r _ ih =>
        intro s p hp hr hnone
        refine Acc.intro s fun t ht => ?_
        obtain ⟨p', q, hp', hq, hqnone, hcase⟩ := yields_cursor ht
        rw [hp] at hp'
        cases hp'
        rcases hcase with ⟨hsome, _⟩ | ⟨_, hlt⟩
        · simp [hnone] at hsome
        · exact ih q.rank (hr ▸ hlt) t q hq rfl hqnone
    refine ⟨fun s => Acc.intro s fun t ht => ?_⟩
    obtain ⟨_, q, _, hq, hqnone, _⟩ := yields_cursor ht
    exact key q.rank t q hq rfl hqnone

end FileScan

end RowStore
