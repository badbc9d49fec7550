import RowStore.Proofs.HeapFile.RoundTrip

/-!
# What a refused row leaves behind

A row that is refused is not counted, and on a page with a free slot nothing else happens either.
But a full page is written out before the row is looked at, so a row that is refused then has done
what finishing the page does (`Writer.append_refused`).

The next row would have done the same, and so would the end of the writing.  So it makes no
difference to the file whether the row was ever there, unless the next call is to finish the page:
that now finishes the fresh page, and the file has a page more, without rows
(`Writer.finish_after_refusal`).
-/

namespace RowStore.Writer

variable {w₀ w w₁ : Writer} {pages : List Page} {r : Row} {e : Error}

/-- What comes of a writer by some last calls: their answers, that of finishing the file, and the
bytes of the file. -/
def outcome (w : Writer) (calls : List Call) :
    List (Except Error Unit) × Except Error Nat × Bytes :=
  ((w.run calls).1, (w.run calls).2.finish.1, (w.run calls).2.finish.2.output)

lemma store_refused (h : (w.store r).1 = .error e) : (w.store r).2 = w := by
  rw [store] at h ⊢
  split at h
  · rfl
  · cases h

lemma rowsWritten_finishPage (w : Writer) : w.finishPage.2.rowsWritten = w.rowsWritten := by
  rw [finishPage]
  split <;> rfl

lemma run_cons_congr {call : Call} (h : w₁.act call = w.act call) (calls : List Call) :
    w₁.run (call :: calls) = w.run (call :: calls) := by
  rw [run, run, h]

namespace Filled

lemma not_full_of_rows_eq_nil (h : Filled w₀ w pages) (hrows : w.page.rows = []) :
    w.page.freeCount ≠ 0 := by
  rw [Ne, h.current.packed.freeCount_eq_zero_iff, hrows, h.current.layout_eq]
  exact Nat.ne_of_lt h.valid.1

lemma rowCount_pos_of_full (h : Filled w₀ w pages) (hfull : w.page.freeCount = 0) :
    0 < w.page.rowCount := by
  rw [h.current.packed.freeCount_eq_zero_iff, h.current.layout_eq] at hfull
  rw [Page.rowCount_eq, hfull]
  exact h.valid.1

/-- Finishing a full page makes no difference to what comes of the writer, except if it is to be
finished anyway. -/
lemma run_of_full (h : Filled w₀ w pages) (hfull : w.page.freeCount = 0)
    (hfinish : w.finishPage = (.ok (), w₁)) {later : List Call} (hne : later ≠ [])
    (hlater : later.head? ≠ some .finishPage) : w₁.run later = w.run later := by
  obtain ⟨w₁', hfinish', h₁, hrows₁⟩ := h.finishPage
  obtain rfl : w₁' = w₁ := congrArg Prod.snd (hfinish'.symm.trans hfinish)
  rcases later with _ | ⟨r | _, later⟩
  · exact absurd rfl hne
  · refine run_cons_congr ?_ later
    show w₁'.append r = w.append r
    rw [append_of_full hfull hfinish, append_of_free (h₁.not_full_of_rows_eq_nil hrows₁)]
  · exact absurd rfl hlater

lemma finish_of_full (h : Filled w₀ w pages) (hfull : w.page.freeCount = 0)
    (hfinish : w.finishPage = (.ok (), w₁)) : w₁.finish = w.finish := by
  obtain ⟨w₁', hfinish', -, hrows₁⟩ := h.finishPage
  obtain rfl : w₁' = w₁ := congrArg Prod.snd (hfinish'.symm.trans hfinish)
  have hnone : ¬ 0 < w₁'.page.rowCount := by
    rw [Page.rowCount_eq, hrows₁]
    exact Nat.lt_irrefl 0
  simp only [Writer.finish, if_neg hnone, if_pos (h.rowCount_pos_of_full hfull), hfinish]

lemma outcome_of_full (h : Filled w₀ w pages) (hfull : w.page.freeCount = 0)
    (hfinish : w.finishPage = (.ok (), w₁)) {later : List Call}
    (hlater : later.head? ≠ some .finishPage) : w₁.outcome later = w.outcome later := by
  by_cases hne : later = []
  · rw [hne, outcome, outcome]
    simp only [Writer.run, h.finish_of_full hfull hfinish]
  · rw [outcome, outcome, h.run_of_full hfull hfinish hne hlater]

end Filled

/-- **A row that is refused leaves no trace, unless the page was full.**  It is never counted.  On a
page with a free slot, the writer is as it was.  A full page has been finished by it, neither more
nor less; and whatever comes later, it is answered alike and the file has the same bytes, unless the
page is to be finished next. -/
theorem append_refused {d d₀ : Disk} {name : String} {schema : Schema} {pageSize : ℕ}
    (hcreate : create d name schema pageSize = .ok (w₀, d₀)) {calls : List Call}
    (hwidth : ∀ r, .append r ∈ calls → r.width = r.schema.width)
    (hw : (w₀.run calls).2 = w) (hrefused : (w.append r).1 = .error e) :
    (w.append r).2.rowsWritten = w.rowsWritten ∧
    (w.page.freeCount ≠ 0 → (w.append r).2 = w) ∧
    (w.page.freeCount = 0 → w.finishPage = (.ok (), (w.append r).2) ∧
      (w.append r).2.pagesWritten = w.pagesWritten + 1) ∧
    ∀ later : List Call, (w.page.freeCount = 0 → later.head? ≠ some .finishPage) →
      (w.append r).2.outcome later = w.outcome later ∧
      (later ≠ [] → (w.append r).2.run later = w.run later) := by
  obtain ⟨answers, w', pages, hrun, hfilled, -⟩ := (create_eq_ok hcreate).1.run hwidth
  obtain rfl : w' = w := by rw [← hw, hrun]
  by_cases hfull : w'.page.freeCount = 0
  · obtain ⟨w₁, hfinish, h₁, -⟩ := hfilled.finishPage
    have hstate : (w'.append r).2 = w₁ := by
      rw [append_of_full hfull hfinish] at hrefused ⊢
      exact store_refused hrefused
    have hrows := rowsWritten_finishPage w'
    rw [hfinish] at hrows
    have hpages : w₁.pagesWritten = w'.pagesWritten + 1 := by
      rw [h₁.count, hfilled.count, List.length_append, List.length_singleton]
    rw [hstate]
    refine ⟨hrows, fun hfree => absurd hfull hfree, fun _ => ⟨hfinish, hpages⟩,
      fun later hlater => ?_⟩
    exact ⟨hfilled.outcome_of_full hfull hfinish (hlater hfull),
      fun hne => hfilled.run_of_full hfull hfinish hne (hlater hfull)⟩
  · have hstate : (w'.append r).2 = w' := by
      rw [append_of_free hfull] at hrefused ⊢
      exact store_refused hrefused
    rw [hstate]
    exact ⟨rfl, fun _ => rfl, fun h => absurd h hfull, fun later _ => ⟨rfl, fun _ => rfl⟩⟩

/-- The rows of a full page. -/
def labelPage : List Call := [.append (label 7 "abc"), .append (label 8 "d")]

/-- A writer whose page is full and not written out yet. -/
def fullLabelWriter : Writer := (labelWriter.run labelPage).2

/-- If a row comes next, nobody can tell that one was refused in front of it. -/
theorem append_refused_labels :
    create (Disk.ofHome []) "t" labels 20 =
        .ok (labelWriter, (Disk.ofHome []).put "/t" ∅) ∧
      (∀ r, .append r ∈ labelPage → r.width = r.schema.width) ∧
      (fullLabelWriter.append (.unset labels)).1 = .error (.typeMismatch "INT_TYPE" "null") ∧
      fullLabelWriter.finishPage = (.ok (), (fullLabelWriter.append (.unset labels)).2) ∧
      (fullLabelWriter.append (.unset labels)).2.outcome [.append (label 9 "")] =
        fullLabelWriter.outcome [.append (label 9 "")] := by
  have hwidth : ∀ r, .append r ∈ labelPage → r.width = r.schema.width := by
    intro r hr
    simp only [labelPage, List.mem_cons, Call.append.injEq, List.not_mem_nil, or_false] at hr
    obtain rfl | rfl := hr <;> rfl
  have hrefused : (fullLabelWriter.append (.unset labels)).1 =
      .error (.typeMismatch "INT_TYPE" "null") := rfl
  obtain ⟨-, -, hfull, hlater⟩ := append_refused create_labelWriter hwidth rfl hrefused
  exact ⟨create_labelWriter, hwidth, hrefused, (hfull rfl).1, (hlater _ fun _ => by simp).1⟩

/-- A refused row raises the number of pages written, and if the page is to be finished next, the
file has a page more. -/
theorem finish_after_refusal :
    (fullLabelWriter.append (.unset labels)).1 = .error (.typeMismatch "INT_TYPE" "null") ∧
      fullLabelWriter.pagesWritten = 0 ∧
      (fullLabelWriter.append (.unset labels)).2.pagesWritten = 1 ∧
      (fullLabelWriter.outcome [.finishPage]).2.1 = .ok 1 ∧
      ((fullLabelWriter.append (.unset labels)).2.outcome [.finishPage]).2.1 = .ok 2 :=
  ⟨rfl, rfl, rfl, rfl, rfl⟩

end RowStore.Writer
