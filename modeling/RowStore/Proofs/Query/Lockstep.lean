import Mathlib.Tactic.Lemma
import RowStore.Query.Plan

/-!
# Worlds in step

Everything that reads tables is written against the questions of `Storage`, so it cannot tell two
worlds apart that answer these alike.  A `Lockstep` relates the states of two worlds that do so as
long as nothing breaks: the first world may refuse a request at any time, and nothing is said of the
second one after that.

A call *keeps* step (`Lockstep.Keeps`) if it gives the same answer and leaves the same state behind
in both worlds, and the worlds in step; unless it meets a broken request, and then it ends there,
with the error of the request as its answer.  All calls on the open cursor of a plan keep step,
however its aggregations list their groups (`Plan.cursors_inStep`).

The two worlds can be the same one, if what is to be related are states of it before and after
something that no call can see.
-/

namespace RowStore

variable {V W σ τ α β : Type} [Storage V] [Storage W]

/-- A relation between two worlds that answer alike, until the first one breaks. -/
structure Lockstep (V W : Type) [Storage V] [Storage W] where
  Rel : V → W → Prop
  /-- A request was just refused with an error. -/
  Broken : Error → V → Prop
  heapFile_eq : ∀ {x y}, Rel x y → ∀ table, Storage.heapFile table x = Storage.heapFile table y
  pageCount_eq : ∀ {x y}, Rel x y → ∀ file, Storage.pageCount file x = Storage.pageCount file y
  request : ∀ {x y}, Rel x y → ∀ page,
    (∃ answer x' y', Storage.request page .readOnly x = (answer, x') ∧
        Storage.request page .readOnly y = (answer, y') ∧ Rel x' y') ∨
      ∃ e x', Storage.request page .readOnly x = (.error e, x') ∧ Broken e x'
  release : ∀ {x y}, Rel x y → ∀ h, Rel (Storage.release h x) (Storage.release h y)
  broken_release : ∀ {e x}, Broken e x → ∀ h, Broken e (Storage.release h x)

namespace Lockstep

variable (L : Lockstep V W)

/-- Two computations come to the same, or the first one ends with the request that breaks. -/
def Agrees (result : Except Failure α × σ × V) (result' : Except Failure α × σ × W) : Prop :=
  (∃ answer s x y, result = (answer, s, x) ∧ result' = (answer, s, y) ∧ L.Rel x y) ∨
    ∃ e s x, result = (.error (.error e), s, x) ∧ L.Broken e x

/-- A call does the same in both worlds, or ends with the request that breaks. -/
def Keeps (call : Call V σ α) (call' : Call W σ α) : Prop :=
  ∀ s x y, L.Rel x y → L.Agrees (call s x) (call' s y)

/-- The calls on an open cursor keep step. -/
structure Cursors (c : Cursor V σ) (c' : Cursor W σ) : Prop where
  hasNext : L.Keeps c.hasNext c'.hasNext
  next : L.Keeps c.next c'.next
  rewind : L.Keeps c.rewind c'.rewind

/-- The calls on a feed that is ready keep step. -/
structure Feeds (f : Feed V σ) (f' : Feed W σ) : Prop where
  fetch : L.Keeps f.fetch f'.fetch
  rewind : L.Keeps f.rewind f'.rewind

variable {L}

/-! ## Loops -/

namespace Cursors

variable {c : Cursor V σ} {c' : Cursor W σ}

lemma pull (hc : L.Cursors c c') : L.Keeps c.pull c'.pull := by
  intro s x y hxy
  obtain ⟨answer, s₁, x₁, y₁, hx, hy, h₁⟩ | ⟨e, s₁, x₁, hx, he⟩ := hc.hasNext s x y hxy
  · rcases answer with e | _ | _
    · refine .inl ⟨.error e, s₁, x₁, y₁, ?_, ?_, h₁⟩ <;> simp only [Cursor.pull, hx, hy]
    · refine .inl ⟨.ok none, s₁, x₁, y₁, ?_, ?_, h₁⟩ <;> simp only [Cursor.pull, hx, hy]
    · obtain ⟨answer, s₂, x₂, y₂, hx', hy', h₂⟩ | ⟨e, s₂, x₂, hx', he⟩ := hc.next s₁ x₁ y₁ h₁
      · refine .inl ⟨answer.map some, s₂, x₂, y₂, ?_, ?_, h₂⟩ <;>
          simp only [Cursor.pull, hx, hy, hx', hy'] <;> cases answer <;> rfl
      · refine .inr ⟨e, s₂, x₂, ?_, he⟩
        simp only [Cursor.pull, hx, hx']
  · refine .inr ⟨e, s₁, x₁, ?_, he⟩
    simp only [Cursor.pull, hx]

/-- The loop goes on as long as pulls take rows, so the induction is on that. -/
lemma find (hc : L.Cursors c c') (fin : c.Finite) (fin' : c'.Finite)
    (test : Row → Except Failure Bool) : L.Keeps (c.find fin test) (c'.find fin' test) := by
  intro s x y hxy
  induction fin.wf.apply s generalizing x y with
  | intro s _ ih =>
    obtain ⟨answer, s₁, x₁, y₁, hx, hy, h₁⟩ | ⟨e, s₁, x₁, hx, he⟩ := hc.pull s x y hxy
    · rcases answer with e | _ | row
      · exact .inl ⟨_, _, _, _, Cursor.find_of_error hx, Cursor.find_of_error hy, h₁⟩
      · exact .inl ⟨_, _, _, _, Cursor.find_of_none hx, Cursor.find_of_none hy, h₁⟩
      · have hfx : c.find fin test s x = _ := Cursor.find_of_some hx
        have hfy : c'.find fin' test s y = _ := Cursor.find_of_some hy
        rcases htest : test row with e | _ | _ <;> rw [htest] at hfx hfy
        · exact .inl ⟨_, _, _, _, hfx, hfy, h₁⟩
        · obtain ⟨answer, s₂, x₂, y₂, hx', hy', h₂⟩ | ⟨e, s₂, x₂, hx', he⟩ :=
            ih s₁ ⟨x, row, x₁, hx⟩ x₁ y₁ h₁
          · exact .inl ⟨answer, s₂, x₂, y₂, hfx.trans hx', hfy.trans hy', h₂⟩
          · exact .inr ⟨e, s₂, x₂, hfx.trans hx', he⟩
        · exact .inl ⟨_, _, _, _, hfx, hfy, h₁⟩
    · exact .inr ⟨e, s₁, x₁, Cursor.find_of_error hx, he⟩

lemma fold (hc : L.Cursors c c') (fin : c.Finite) (fin' : c'.Finite)
    (f : β → Row → Except Failure β) (b : β) : L.Keeps (c.fold fin f b) (c'.fold fin' f b) := by
  intro s x y hxy
  induction fin.wf.apply s generalizing b x y with
  | intro s _ ih =>
    obtain ⟨answer, s₁, x₁, y₁, hx, hy, h₁⟩ | ⟨e, s₁, x₁, hx, he⟩ := hc.pull s x y hxy
    · rcases answer with e | _ | row
      · exact .inl ⟨_, _, _, _, Cursor.fold_of_error hx, Cursor.fold_of_error hy, h₁⟩
      · exact .inl ⟨_, _, _, _, Cursor.fold_of_none hx, Cursor.fold_of_none hy, h₁⟩
      · have hfx : c.fold fin f b s x = _ := Cursor.fold_of_some hx
        have hfy : c'.fold fin' f b s y = _ := Cursor.fold_of_some hy
        rcases hf : f b row with e | b' <;> rw [hf] at hfx hfy
        · exact .inl ⟨_, _, _, _, hfx, hfy, h₁⟩
        · obtain ⟨answer, s₂, x₂, y₂, hx', hy', h₂⟩ | ⟨e, s₂, x₂, hx', he⟩ :=
            ih s₁ ⟨x, row, x₁, hx⟩ b' x₁ y₁ h₁
          · exact .inl ⟨answer, s₂, x₂, y₂, hfx.trans hx', hfy.trans hy', h₂⟩
          · exact .inr ⟨e, s₂, x₂, hfx.trans hx', he⟩
    · exact .inr ⟨e, s₁, x₁, Cursor.fold_of_error hx, he⟩

lemma drain (hc : L.Cursors c c') (fin : c.Finite) (fin' : c'.Finite) :
    L.Keeps (c.drain fin) (c'.drain fin') := by
  intro s x y hxy
  obtain ⟨answer, s₁, x₁, y₁, hx, hy, h₁⟩ | ⟨e, s₁, x₁, hx, he⟩ :=
    hc.fold fin fin' (fun rows row => .ok (row :: rows)) [] s x y hxy
  · refine .inl ⟨answer.map List.reverse, s₁, x₁, y₁, ?_, ?_, h₁⟩ <;>
      simp only [Cursor.drain, hx, hy] <;> cases answer <;> rfl
  · refine .inr ⟨e, s₁, x₁, ?_, he⟩
    simp only [Cursor.drain, hx]

end Cursors

/-! ## Operators -/

namespace Feeds

variable {f : Feed V σ} {f' : Feed W σ}

lemma hasNext (hf : L.Feeds f f') : L.Keeps (Lookahead.hasNext f) (Lookahead.hasNext f') := by
  rintro ⟨feed, ahead, isOpen⟩ x y hxy
  rcases isOpen with _ | _
  · exact .inl ⟨_, _, x, y, rfl, rfl, hxy⟩
  rcases ahead with _ | row
  · obtain ⟨answer, feed₁, x₁, y₁, hx, hy, h₁⟩ | ⟨e, feed₁, x₁, hx, he⟩ := hf.fetch feed x y hxy
    · refine .inl ⟨answer.map Option.isSome, ⟨feed₁, answer.toOption.join, true⟩, x₁, y₁,
        ?_, ?_, h₁⟩ <;> simp only [Lookahead.hasNext, hx, hy, if_true] <;> cases answer <;> rfl
    · refine .inr ⟨e, ⟨feed₁, none, true⟩, x₁, ?_, he⟩
      simp only [Lookahead.hasNext, hx, if_true]
  · exact .inl ⟨_, _, x, y, rfl, rfl, hxy⟩

lemma next (hf : L.Feeds f f') : L.Keeps (Lookahead.next f) (Lookahead.next f') := by
  intro s x y hxy
  rcases hopen : s.isOpen with _ | _
  · refine .inl ⟨.error (notOpen nextText), s, x, y, ?_, ?_, hxy⟩ <;>
      simp only [Lookahead.next, hopen, Bool.false_eq_true, if_false]
  obtain ⟨answer, s₁, x₁, y₁, hx, hy, h₁⟩ | ⟨e, s₁, x₁, hx, he⟩ := hf.hasNext s x y hxy
  · rcases answer with e | found
    · refine .inl ⟨.error e, s₁, x₁, y₁, ?_, ?_, h₁⟩ <;>
        simp only [Lookahead.next, hopen, hx, hy, if_true]
    · rcases hahead : s₁.ahead with _ | row
      · refine .inl ⟨.error exhausted, s₁, x₁, y₁, ?_, ?_, h₁⟩ <;>
          simp only [Lookahead.next, hopen, hx, hy, hahead, if_true]
      · refine .inl ⟨.ok row, { s₁ with ahead := none }, x₁, y₁, ?_, ?_, h₁⟩ <;>
          simp only [Lookahead.next, hopen, hx, hy, hahead, if_true]
  · refine .inr ⟨e, s₁, x₁, ?_, he⟩
    simp only [Lookahead.next, hopen, hx, if_true]

lemma rewind_cursor (hf : L.Feeds f f') :
    L.Keeps (Lookahead.rewind f) (Lookahead.rewind f') := by
  rintro ⟨feed, ahead, isOpen⟩ x y hxy
  rcases isOpen with _ | _
  · exact .inl ⟨_, _, x, y, rfl, rfl, hxy⟩
  obtain ⟨answer, feed₁, x₁, y₁, hx, hy, h₁⟩ | ⟨e, feed₁, x₁, hx, he⟩ := hf.rewind feed x y hxy
  · refine .inl ⟨answer, ⟨feed₁, none, true⟩, x₁, y₁, ?_, ?_, h₁⟩ <;>
      simp only [Lookahead.rewind, hx, hy, if_true]
  · refine .inr ⟨e, ⟨feed₁, none, true⟩, x₁, ?_, he⟩
    simp only [Lookahead.rewind, hx, if_true]

lemma cursors (hf : L.Feeds f f') : L.Cursors (Lookahead.cursor f) (Lookahead.cursor f') where
  hasNext := hf.hasNext
  next := hf.next
  rewind := hf.rewind_cursor

end Feeds

lemma feeds_rows (rows : List Row) :
    L.Feeds (RowList.feed rows) (RowList.feed rows) where
  fetch := fun position x y hxy => by
    rcases hrow : rows[position]? with _ | row
    · refine .inl ⟨.ok none, position, x, y, ?_, ?_, hxy⟩ <;>
        simp only [RowList.feed, RowList.fetch, hrow]
    · refine .inl ⟨.ok (some row), position + 1, x, y, ?_, ?_, hxy⟩ <;>
        simp only [RowList.feed, RowList.fetch, hrow]
  rewind := fun _ x y hxy => .inl ⟨.ok (), 0, x, y, rfl, rfl, hxy⟩

lemma Cursors.filter {c : Cursor V σ} {c' : Cursor W σ} (hc : L.Cursors c c') (fin : c.Finite)
    (fin' : c'.Finite) (test : Row → Except Failure Bool) :
    L.Feeds (Filter.feed test c fin) (Filter.feed test c' fin') where
  fetch := hc.find fin fin' test
  rewind := hc.rewind

section

variable {j : Join V σ τ} {j' : Join W σ τ}

/-- Looking for a match of a left row, if doing without one keeps step for this state of the left
child. -/
lemma Cursors.search (hr : L.Cursors j.right j'.right) (hschema : j.schema = j'.schema)
    (htest : j.test = j'.test) {left : σ}
    (hfetch : ∀ right x y, L.Rel x y →
      L.Agrees (j.fetch ⟨left, right, none⟩ x) (j'.fetch ⟨left, right, none⟩ y))
    (l : Row) {right : τ} {x : V} {y : W} (hxy : L.Rel x y) :
    L.Agrees (j.search l left right x) (j'.search l left right y) := by
  obtain ⟨answer, right₁, x₁, y₁, hx, hy, h₁⟩ | ⟨e, right₁, x₁, hx, he⟩ :=
    hr.find j.rightFinite j'.rightFinite (j.test l) right x y hxy
  · rw [htest] at hy
    rcases answer with e | _ | r
    · exact .inl ⟨_, _, _, _, Join.search_of_error hx, Join.search_of_error hy, h₁⟩
    · obtain ⟨answer, right₂, x₂, y₂, hx', hy', h₂⟩ | ⟨e, right₂, x₂, hx', he⟩ :=
        hr.rewind right₁ x₁ y₁ h₁
      · rcases answer with e | ⟨⟩
        · exact .inl ⟨_, _, _, _, Join.search_of_rewind_error hx hx',
            Join.search_of_rewind_error hy hy', h₂⟩
        · rw [Join.search_of_none hx hx', Join.search_of_none hy hy']
          exact hfetch right₂ x₂ y₂ h₂
      · exact .inr ⟨e, _, _, Join.search_of_rewind_error hx hx', he⟩
    · refine .inl ⟨_, _, _, _, Join.search_of_some hx, ?_, h₁⟩
      rw [hschema]
      exact Join.search_of_some hy
  · exact .inr ⟨e, _, _, Join.search_of_error hx, he⟩

/-- Without a left row in hand the left child is pulled, so the induction is on its pulls. -/
lemma Cursors.fetch_none (hl : L.Cursors j.left j'.left) (hr : L.Cursors j.right j'.right)
    (hschema : j.schema = j'.schema) (htest : j.test = j'.test) (left : σ) :
    ∀ right x y, L.Rel x y →
      L.Agrees (j.fetch ⟨left, right, none⟩ x) (j'.fetch ⟨left, right, none⟩ y) := by
  induction j.leftFinite.wf.apply left with
  | intro left _ ih =>
    intro right x y hxy
    obtain ⟨answer, left₁, x₁, y₁, hx, hy, h₁⟩ | ⟨e, left₁, x₁, hx, he⟩ := hl.pull left x y hxy
    · rcases answer with e | _ | l
      · refine .inl ⟨.error e, ⟨left₁, right, none⟩, x₁, y₁, ?_, ?_, h₁⟩ <;>
          simp only [Join.fetch, hx, hy]
      · refine .inl ⟨.ok none, ⟨left₁, right, none⟩, x₁, y₁, ?_, ?_, h₁⟩ <;>
          simp only [Join.fetch, hx, hy]
      · have hsearch : L.Agrees (j.search l left₁ right x₁) (j'.search l left₁ right y₁) :=
          hr.search hschema htest (ih left₁ ⟨x, l, x₁, hx⟩) l h₁
        simpa only [Join.fetch, hx, hy] using hsearch
    · refine .inr ⟨e, ⟨left₁, right, none⟩, x₁, ?_, he⟩
      simp only [Join.fetch, hx]

lemma Cursors.join (hl : L.Cursors j.left j'.left) (hr : L.Cursors j.right j'.right)
    (hschema : j.schema = j'.schema) (htest : j.test = j'.test) : L.Feeds j.feed j'.feed where
  fetch := by
    rintro ⟨left, right, _ | l⟩ x y hxy
    · exact hl.fetch_none hr hschema htest left right x y hxy
    · exact hr.search hschema htest (hl.fetch_none hr hschema htest left) l hxy
  rewind := by
    rintro ⟨left, right, current⟩ x y hxy
    obtain ⟨answer, left₁, x₁, y₁, hx, hy, h₁⟩ | ⟨e, left₁, x₁, hx, he⟩ := hl.rewind left x y hxy
    · rcases answer with e | ⟨⟩
      · refine .inl ⟨.error e, ⟨left₁, right, current⟩, x₁, y₁, ?_, ?_, h₁⟩ <;>
          simp only [Join.feed, Join.rewind, hx, hy]
      · obtain ⟨answer, right₁, x₂, y₂, hx', hy', h₂⟩ | ⟨e, right₁, x₂, hx', he⟩ :=
          hr.rewind right x₁ y₁ h₁
        · rcases answer with e | ⟨⟩
          · refine .inl ⟨.error e, ⟨left₁, right₁, current⟩, x₂, y₂, ?_, ?_, h₂⟩ <;>
              simp only [Join.feed, Join.rewind, hx, hy, hx', hy']
          · refine .inl ⟨.ok (), ⟨left₁, right₁, none⟩, x₂, y₂, ?_, ?_, h₂⟩ <;>
              simp only [Join.feed, Join.rewind, hx, hy, hx', hy']
        · refine .inr ⟨e, ⟨left₁, right₁, current⟩, x₂, ?_, he⟩
          simp only [Join.feed, Join.rewind, hx, hx']
    · refine .inr ⟨e, ⟨left₁, right, current⟩, x₁, ?_, he⟩
      simp only [Join.feed, Join.rewind, hx]

end

/-- Once the results are made, an aggregation does not need the world any more. -/
lemma feeds_aggregation (a : Aggregation) (order : Arrangement V) (order' : Arrangement W)
    (child : Cursor V σ) (child' : Cursor W σ) (fin : child.Finite) (fin' : child'.Finite) :
    L.Feeds (a.feed order child fin) (a.feed order' child' fin') where
  fetch := by
    rintro ⟨c, _ | ⟨rows, position⟩⟩ x y hxy
    · exact .inl ⟨_, _, x, y, rfl, rfl, hxy⟩
    · rcases hrow : rows[position]? with _ | row
      · refine .inl ⟨.ok none, ⟨c, some (rows, position)⟩, x, y, ?_, ?_, hxy⟩ <;>
          simp only [Aggregation.feed, Aggregation.fetch, RowList.fetch, hrow]
      · refine .inl ⟨.ok (some row), ⟨c, some (rows, position + 1)⟩, x, y, ?_, ?_, hxy⟩ <;>
          simp only [Aggregation.feed, Aggregation.fetch, RowList.fetch, hrow]
  rewind := fun s x y hxy => .inl ⟨_, _, x, y, rfl, rfl, hxy⟩

/-! ## Scans -/

lemma letGo {p : ScanProgress} {x : V} {y : W} (hxy : L.Rel x y) :
    L.Rel (p.letGo x) (p.letGo y) := by
  obtain ⟨pageCount, nextPage, _ | ⟨h, rows⟩, ahead⟩ := p
  · exact hxy
  · exact L.release hxy h

lemma letGo_scan {s : FileScan} {x : V} {y : W} (hxy : L.Rel x y) :
    L.Rel (s.letGo x) (s.letGo y) := by
  obtain ⟨file, _ | p⟩ := s
  · exact hxy
  · exact letGo hxy

/-- Making a row ready. -/
lemma advance (file : HeapFile) (p : ScanProgress) (x : V) : ∀ y, L.Rel x y →
    (∃ answer p' x' y', p.advance file x = (answer, p', x') ∧
        p.advance file y = (answer, p', y') ∧ L.Rel x' y') ∨
      ∃ e p' x', p.advance file x = (.error e, p', x') ∧ L.Broken e x' := by
  fun_induction ScanProgress.advance file p x with
  | case1 p x h row rest hc =>
    intro y hxy
    exact .inl ⟨_, _, x, y, rfl, ScanProgress.advance_of_row hc, hxy⟩
  | case2 p x x₁ hlt e x₂ hr hc =>
    intro y hxy
    obtain ⟨answer, x', y', hx, hy, h₁⟩ | ⟨e', x', hx, he⟩ :=
      L.request (letGo (p := p) hxy) ⟨file.id, UInt32.ofNat p.nextPage⟩
    · cases hr.symm.trans hx
      exact .inl ⟨_, _, _, y', rfl, ScanProgress.advance_of_refused hc hlt hy, h₁⟩
    · cases hr.symm.trans hx
      exact .inr ⟨e, _, x₂, rfl, he⟩
  | case3 p x x₁ hlt h x₂ hr hc ih =>
    intro y hxy
    obtain ⟨answer, x', y', hx, hy, h₁⟩ | ⟨e', x', hx, he⟩ :=
      L.request (letGo (p := p) hxy) ⟨file.id, UInt32.ofNat p.nextPage⟩
    · cases hr.symm.trans hx
      rw [ScanProgress.advance_of_granted hc hlt hy]
      exact ih y' h₁
    · cases hr.symm.trans hx
  | case4 p x x₁ hge hc =>
    intro y hxy
    exact .inl ⟨_, _, _, _, rfl, ScanProgress.advance_of_end hc hge, letGo hxy⟩

lemma hasNext_file : L.Keeps FileScan.hasNext FileScan.hasNext := by
  rintro ⟨file, _ | p⟩ x y hxy
  · exact .inl ⟨_, _, x, y, rfl, rfl, hxy⟩
  rcases hahead : p.ahead with _ | row
  · obtain ⟨answer, p₁, x₁, y₁, hx, hy, h₁⟩ | ⟨e, p₁, x₁, hx, he⟩ := advance file p x y hxy
    · exact .inl ⟨_, _, x₁, y₁, FileScan.hasNext_of_advance hahead hx,
        FileScan.hasNext_of_advance hahead hy, h₁⟩
    · exact .inr ⟨e, _, x₁, FileScan.hasNext_of_advance hahead hx, he⟩
  · refine .inl ⟨.ok true, ⟨file, some p⟩, x, y, ?_, ?_, hxy⟩ <;>
      simp only [FileScan.hasNext, hahead]

lemma next_file : L.Keeps FileScan.next FileScan.next := by
  intro s x y hxy
  obtain ⟨answer, ⟨file, progress⟩, x₁, y₁, hx, hy, h₁⟩ | ⟨e, s₁, x₁, hx, he⟩ :=
    hasNext_file s x y hxy
  · rcases answer with e | found
    · refine .inl ⟨.error e, ⟨file, progress⟩, x₁, y₁, ?_, ?_, h₁⟩ <;>
        simp only [FileScan.next, hx, hy]
    · rcases progress with _ | ⟨pageCount, nextPage, current, _ | row⟩
      · refine .inl ⟨.error exhausted, ⟨file, none⟩, x₁, y₁, ?_, ?_, h₁⟩ <;>
          simp only [FileScan.next, hx, hy]
      · refine .inl ⟨.error exhausted, ⟨file, some ⟨pageCount, nextPage, current, none⟩⟩, x₁, y₁,
          ?_, ?_, h₁⟩ <;> simp only [FileScan.next, hx, hy]
      · refine .inl ⟨.ok row, ⟨file, some ⟨pageCount, nextPage, current, none⟩⟩, x₁, y₁,
          ?_, ?_, h₁⟩ <;> simp only [FileScan.next, hx, hy]
  · refine .inr ⟨e, s₁, x₁, ?_, he⟩
    simp only [FileScan.next, hx]

lemma start_file : L.Keeps FileScan.start FileScan.start := by
  intro s x y hxy
  have hcount := L.pageCount_eq hxy s.file
  rcases hy : Storage.pageCount s.file y with e | count <;> rw [hy] at hcount
  · exact .inl ⟨_, s, x, y, FileScan.start_of_error hcount, FileScan.start_of_error hy, hxy⟩
  · exact .inl ⟨_, _, _, _, FileScan.start_of_ok hcount, FileScan.start_of_ok hy, letGo_scan hxy⟩

lemma cursors_file : L.Cursors FileScan.cursor FileScan.cursor where
  hasNext := hasNext_file
  next := next_file
  rewind := by
    rintro ⟨file, _ | p⟩ x y hxy
    · exact .inl ⟨_, _, x, y, rfl, rfl, hxy⟩
    · exact start_file ⟨file, none⟩ _ _ (letGo hxy)

lemma Keeps.forward {call : Call V FileScan α} {call' : Call W FileScan α}
    (h : L.Keeps call call') (name : String) :
    L.Keeps (TableScan.forward name call) (TableScan.forward name call') := by
  rintro (_ | scan) x y hxy
  · exact .inl ⟨_, _, x, y, rfl, rfl, hxy⟩
  · obtain ⟨answer, scan₁, x₁, y₁, hx, hy, h₁⟩ | ⟨e, scan₁, x₁, hx, he⟩ := h scan x y hxy
    · refine .inl ⟨answer, some scan₁, x₁, y₁, ?_, ?_, h₁⟩ <;>
        simp only [TableScan.forward, hx, hy]
    · refine .inr ⟨e, some scan₁, x₁, ?_, he⟩
      simp only [TableScan.forward, hx]

lemma start_table (t : TableScan) : L.Keeps (t.start (W := V)) (t.start (W := W)) := by
  intro s x y hxy
  have hlookup := L.heapFile_eq hxy t.table
  rcases hy : Storage.heapFile t.table y with e | file <;> rw [hy] at hlookup
  · refine .inl ⟨.error (.error e), s, x, y, ?_, ?_, hxy⟩ <;>
      simp only [TableScan.start, hlookup, hy]
  by_cases hshape : file.schema.shape = t.schema.shape
  · have hcount := L.pageCount_eq hxy file
    rcases hcounty : Storage.pageCount file y with e | count <;> rw [hcounty] at hcount
    · exact .inl ⟨_, s, x, y, TableScan.start_of_error hlookup hshape hcount,
        TableScan.start_of_error hy hshape hcounty, hxy⟩
    · refine .inl ⟨_, _, _, _, TableScan.start_of_ok hlookup hshape hcount,
        TableScan.start_of_ok hy hshape hcounty, ?_⟩
      rcases s with _ | old
      · exact hxy
      · exact letGo_scan hxy
  · refine .inl ⟨.error (.error (.typeMismatch t.schema.text file.schema.text)), s, x, y, ?_, ?_,
      hxy⟩ <;> simp only [TableScan.start, hlookup, hy, hshape, if_false]

lemma cursors_table (t : TableScan) : L.Cursors (t.cursor (W := V)) (t.cursor (W := W)) where
  hasNext := hasNext_file.forward hasNextText
  next := next_file.forward nextText
  rewind := cursors_file.rewind.forward rewindText

end Lockstep

/-! ## Plans -/

/-- **The calls on an open plan keep step.** -/
theorem Plan.cursors_inStep (L : Lockstep V W) (p : Plan) (orders : p.Orders V)
    (orders' : p.Orders W) : L.Cursors (p.cursor orders) (p.cursor orders') := by
  induction p with
  | rows schema list => exact (Lockstep.feeds_rows list).cursors
  | scan t => exact Lockstep.cursors_table t
  | filter predicate child ih =>
    exact ((ih orders orders').filter (child.finite_cursor orders) (child.finite_cursor orders')
      predicate.test).cursors
  | join predicate left right ihl ihr =>
    let j : Join V left.State right.State :=
      ⟨left.schema.append right.schema, predicate.test, left.cursor orders.1,
        left.finite_cursor orders.1, right.cursor orders.2, right.finite_cursor orders.2⟩
    let j' : Join W left.State right.State :=
      ⟨left.schema.append right.schema, predicate.test, left.cursor orders'.1,
        left.finite_cursor orders'.1, right.cursor orders'.2, right.finite_cursor orders'.2⟩
    have hfeeds : L.Feeds j.feed j'.feed :=
      Lockstep.Cursors.join (ihl orders.1 orders'.1) (ihr orders.2 orders'.2) rfl rfl
    exact hfeeds.cursors
  | aggregate a child ih => exact (Lockstep.feeds_aggregation a orders.1 orders'.1 _ _ _ _).cursors

end RowStore
