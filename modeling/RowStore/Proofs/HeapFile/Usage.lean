import RowStore.Bounded
import RowStore.Proofs.HeapFile.Writing

/-!
# How many pages a writer writes out

How many pages there are after some calls, and how many rows are on the current one, can be told
from the calls alone: a row that comes to a full page begins a new one, and only a row that can be
stored takes a slot (`Usage.after`).  A writer keeps to this count (`Writer.Filled.usage_run`).

Within the bounds of a machine, calls can be made exactly as long as the layout admits the pages
that they write out: then they do what they do without bounds, and beyond that there is no answer
(`Writer.Filled.runBounded`, `Writer.Filled.finishBounded`).
-/

namespace RowStore.Writer

/-! ## Counting -/

/-- So many pages have been written out, and so many rows are on the current one. -/
structure Usage where
  pages : ℕ
  rows : ℕ

namespace Usage

variable {schema : Schema} {slots : ℕ} {u : Usage} {call : Call}

/-- A new page is begun. -/
def turn (u : Usage) : Usage := ⟨u.pages + 1, 0⟩

/-- A row comes: a full page is written out first, and the row takes a slot if it can be stored. -/
def take (schema : Schema) (slots : ℕ) (u : Usage) (r : Row) : Usage :=
  let room := if u.rows = slots then u.turn else u
  ⟨room.pages, room.rows + if r.Storable schema then 1 else 0⟩

/-- What a call makes of the count. -/
def after (schema : Schema) (slots : ℕ) (u : Usage) : Call → Usage
  | .append r => u.take schema slots r
  | .finishPage => u.turn

/-- What calls one after the other make of the count. -/
def afterAll (schema : Schema) (slots : ℕ) (u : Usage) (calls : List Call) : Usage :=
  calls.foldl (after schema slots) u

/-- The count after calls that fill a new file. -/
def ofCalls (schema : Schema) (slots : ℕ) (calls : List Call) : Usage :=
  afterAll schema slots ⟨0, 0⟩ calls

/-- The pages that a file has in the end: the current page is written out if it holds a row. -/
def total (u : Usage) : ℕ := if 0 < u.rows then u.pages + 1 else u.pages

lemma take_of_full (h : u.rows = slots) (r : Row) :
    u.take schema slots r = ⟨u.pages + 1, if r.Storable schema then 1 else 0⟩ := by
  rw [take, if_pos h, turn, Nat.zero_add]

lemma take_of_free (h : u.rows ≠ slots) (r : Row) :
    u.take schema slots r = ⟨u.pages, u.rows + if r.Storable schema then 1 else 0⟩ := by
  rw [take, if_neg h]

lemma pages_le_after : u.pages ≤ (u.after schema slots call).pages := by
  cases call with
  | finishPage => exact Nat.le_succ _
  | append r =>
    by_cases hfull : u.rows = slots
    · rw [after, take_of_full hfull]
      exact Nat.le_succ _
    · rw [after, take_of_free hfull]

lemma pages_le_afterAll (calls : List Call) :
    u.pages ≤ (u.afterAll schema slots calls).pages := by
  induction calls generalizing u with
  | nil => exact Nat.le_refl _
  | cons call calls ih => exact Nat.le_trans pages_le_after ih

end Usage

/-- How far a writer has come. -/
def usage (w : Writer) : Usage := ⟨w.pagesWritten, w.page.rowCount⟩

/-- What a call does within the bounds of a machine. -/
def actBounded (w : Writer) : Call → Except Failure (Except Error Unit × Writer)
  | .append r => w.appendBounded r
  | .finishPage => w.finishPageBounded

/-- Calls one after the other, as long as they are within bounds. -/
def runBounded : Writer → List Call → Except Failure (List (Except Error Unit) × Writer)
  | w, [] => return ([], w)
  | w, call :: calls => do
    let (answer, w) ← w.actBounded call
    let (answers, w) ← w.runBounded calls
    return (answer :: answers, w)

lemma pagesWritten_store (w : Writer) (r : Row) : (w.store r).2.pagesWritten = w.pagesWritten := by
  rw [store]
  split <;> rfl

namespace Filled

variable {w₀ w : Writer} {pages : List Page} {call : Call} {calls : List Call}

/-! ## The count of a writer -/

lemma full_iff (h : Filled w₀ w pages) :
    w.page.freeCount = 0 ↔ w.usage.rows = w₀.layout.slots := by
  rw [h.current.packed.freeCount_eq_zero_iff, h.current.layout_eq, usage, Page.rowCount_eq]

lemma usage_finishPage (h : Filled w₀ w pages) : w.finishPage.2.usage = w.usage.turn := by
  obtain ⟨w', hfinish, h', hrows⟩ := h.finishPage
  have hcount := h'.count
  rw [List.length_append, List.length_singleton, ← h.count] at hcount
  rw [hfinish, usage, Page.rowCount_eq, hrows, hcount]
  rfl

lemma usage_store (h : Filled w₀ w pages) (hfree : w.page.rows.length < w.page.layout.slots)
    {r : Row} (hwidth : r.width = r.schema.width) : (w.store r).2.usage =
      ⟨w.usage.pages, w.usage.rows + if r.Storable w₀.schema then 1 else 0⟩ := by
  obtain ⟨answer, w', hstore, -, -, hfields⟩ := h.store hfree hwidth
  have hcount := pagesWritten_store w r
  have hlength := congrArg List.length hfields
  rw [hstore] at hcount ⊢
  simp only [List.length_append, List.length_map, ← Page.rowCount_eq] at hlength
  rw [usage, hcount, hlength, Call.row?]
  split <;> rfl

/-- A call is counted as it should be. -/
lemma usage_act (h : Filled w₀ w pages)
    (hwidth : ∀ r, call = .append r → r.width = r.schema.width) :
    (w.act call).2.usage = w.usage.after w₀.schema w₀.layout.slots call := by
  cases call with
  | finishPage => exact h.usage_finishPage
  | append r =>
    have hwidth := hwidth r rfl
    by_cases hfull : w.page.freeCount = 0
    · obtain ⟨w₁, hfinish, h₁, hrows₁⟩ := h.finishPage
      have hfree : w₁.page.rows.length < w₁.page.layout.slots := by
        rw [hrows₁, h₁.current.layout_eq]
        exact h.valid.1
      have hturn := h.usage_finishPage
      rw [hfinish] at hturn
      rw [Writer.act, append_of_full hfull hfinish, h₁.usage_store hfree hwidth, hturn, Usage.after,
        Usage.take_of_full (h.full_iff.1 hfull), Usage.turn, Nat.zero_add]
    · have hfree : w.page.rows.length < w.page.layout.slots := by
        have hle := h.current.packed.length_rows_le
        rw [h.current.packed.freeCount_eq_zero_iff] at hfull
        omega
      rw [Writer.act, append_of_free hfull, h.usage_store hfree hwidth, Usage.after,
        Usage.take_of_free (mt h.full_iff.2 hfull)]

/-- So are calls one after the other. -/
lemma usage_run (h : Filled w₀ w pages)
    (hwidth : ∀ r, .append r ∈ calls → r.width = r.schema.width) :
    (w.run calls).2.usage = w.usage.afterAll w₀.schema w₀.layout.slots calls := by
  induction calls generalizing w pages with
  | nil => rfl
  | cons call calls ih =>
    have hhead : ∀ r, call = .append r → r.width = r.schema.width := fun r hr =>
      hwidth r (hr ▸ List.mem_cons_self)
    obtain ⟨answer, w₁, pages₁, hact, h₁, -⟩ := h.act hhead
    have husage := h.usage_act hhead
    rw [hact] at husage
    rw [Writer.run, hact, Usage.afterAll, List.foldl_cons, ← husage]
    exact ih h₁ fun r hr => hwidth r (List.mem_cons_of_mem call hr)

lemma finish_eq_total (h : Filled w₀ w pages) : w.finish.1 = .ok w.usage.total := by
  rw [Writer.finish, Usage.total, usage]
  by_cases hrows : 0 < w.page.rowCount
  · obtain ⟨w', hfinish, h', -⟩ := h.finishPage
    have hcount := h'.count
    rw [List.length_append, List.length_singleton, ← h.count] at hcount
    simp only [if_pos hrows, hfinish, hcount]
  · simp only [if_neg hrows]

/-! ## Within bounds -/

/-- Whether a page may be written out is checked in front. -/
lemma map_checkPage {α : Type} (h : Filled w₀ w pages) (a : α) :
    (w₀.layout.Admits (w.usage.pages + 1) → w.checkPage.map (fun _ => a) = .ok a) ∧
    (¬ w₀.layout.Admits (w.usage.pages + 1) →
      ∃ promise, w.checkPage.map (fun _ => a) = .error (.violation promise)) := by
  rw [← h.layout_eq]
  refine ⟨fun hadmits => ?_, fun hadmits => ?_⟩
  · rw [checkPage_of_admits hadmits]
    rfl
  · obtain ⟨promise, hcheck⟩ := checkPage_of_not_admits hadmits
    exact ⟨promise, by rw [hcheck]; rfl⟩

/-- A call is answered as long as it writes no page out that is out of bounds. -/
lemma actBounded (h : Filled w₀ w pages) (hpast : w₀.layout.Admits w.usage.pages) (call : Call) :
    (w₀.layout.Admits (w.usage.after w₀.schema w₀.layout.slots call).pages →
      w.actBounded call = .ok (w.act call)) ∧
    (¬ w₀.layout.Admits (w.usage.after w₀.schema w₀.layout.slots call).pages →
      ∃ promise, w.actBounded call = .error (.violation promise)) := by
  cases call with
  | finishPage =>
    rw [Writer.actBounded, finishPageBounded_eq]
    exact h.map_checkPage w.finishPage
  | append r =>
    by_cases hfull : w.page.freeCount = 0
    · rw [Usage.after, Usage.take_of_full (h.full_iff.1 hfull), Writer.actBounded,
        appendBounded_of_full hfull]
      exact h.map_checkPage (w.append r)
    · rw [Usage.after, Usage.take_of_free (mt h.full_iff.2 hfull), Writer.actBounded,
        appendBounded_of_free hfull]
      exact ⟨fun _ => rfl, fun hadmits => absurd hpast hadmits⟩

/-- Calls are answered as long as they write no page out that is out of bounds. -/
lemma runBounded (h : Filled w₀ w pages) (hpast : w₀.layout.Admits w.usage.pages)
    (hwidth : ∀ r, .append r ∈ calls → r.width = r.schema.width) :
    (w₀.layout.Admits (w.usage.afterAll w₀.schema w₀.layout.slots calls).pages →
      w.runBounded calls = .ok (w.run calls)) ∧
    (¬ w₀.layout.Admits (w.usage.afterAll w₀.schema w₀.layout.slots calls).pages →
      ∃ promise, w.runBounded calls = .error (.violation promise)) := by
  induction calls generalizing w pages with
  | nil => exact ⟨fun _ => rfl, fun hadmits => absurd hpast hadmits⟩
  | cons call calls ih =>
    have hhead : ∀ r, call = .append r → r.width = r.schema.width := fun r hr =>
      hwidth r (hr ▸ List.mem_cons_self)
    obtain ⟨answer, w₁, pages₁, hact, h₁, -⟩ := h.act hhead
    have husage := h.usage_act hhead
    rw [hact] at husage
    obtain ⟨hok, hnone⟩ := h.actBounded hpast call
    rw [← husage] at hok hnone
    rw [Usage.afterAll, List.foldl_cons, ← husage]
    by_cases hnext : w₀.layout.Admits w₁.usage.pages
    · obtain ⟨hrest, hbeyond⟩ := ih h₁ hnext fun r hr => hwidth r (List.mem_cons_of_mem call hr)
      refine ⟨fun hadmits => ?_, fun hadmits => ?_⟩
      · simp only [Writer.runBounded, Writer.run, hok hnext, hact, hrest hadmits, bind, Except.bind]
        rfl
      · obtain ⟨promise, hrun⟩ := hbeyond hadmits
        exact ⟨promise, by simp only [Writer.runBounded, hok hnext, hact, hrun, bind, Except.bind]⟩
    · -- What is out of bounds after one call stays so.
      refine ⟨fun hadmits => absurd (hadmits.mono (Usage.pages_le_afterAll calls)) hnext,
        fun _ => ?_⟩
      obtain ⟨promise, hact'⟩ := hnone hnext
      exact ⟨promise, by simp only [Writer.runBounded, hact', bind, Except.bind]⟩

/-- The last page is written out, too, unless it is out of bounds. -/
lemma finishBounded (h : Filled w₀ w pages) (hpast : w₀.layout.Admits w.usage.pages) :
    (w₀.layout.Admits w.usage.total → w.finishBounded = .ok w.finish) ∧
    (¬ w₀.layout.Admits w.usage.total →
      ∃ promise, w.finishBounded = .error (.violation promise)) := by
  by_cases hrows : 0 < w.page.rowCount
  · have htotal : w.usage.total = w.usage.pages + 1 := if_pos hrows
    rw [htotal, finishBounded_of_rows hrows]
    exact h.map_checkPage w.finish
  · have htotal : w.usage.total = w.usage.pages := if_neg hrows
    rw [htotal, finishBounded_of_none hrows]
    exact ⟨fun _ => rfl, fun hadmits => absurd hpast hadmits⟩

end Filled

end RowStore.Writer
