import Mathlib.Data.Finset.Union
import Mathlib.Data.List.Perm.Basic
import RowStore.Proofs.Query.Operators

/-!
# Courses

The answers of a plan do not tell all that matters for what happens next to it.  A join holds the
page of its left row while it asks for right ones, and whether another page can be had may depend on
which pages are held.  The *course* of a cursor therefore also says, for every row, which pages are
held after it.

Courses are made for plans as lists of answers are, except that the course of a right child depends
on the pages that the left row keeps (`Course.join`).  As long as nothing fails, the order in which
the children hand out their rows only changes the order of a course (`Course.join_perm`).
-/

namespace RowStore

/-! ## Rows with the pages that are held -/

/-- What a pull gives: a row and the pages that are held after it, or a failure. -/
abbrev Pulled := Except Failure (Row × Finset PageId)

/-- What the pulls of a cursor give, one after the other. -/
abbrev Course := List Pulled

namespace Course

/-- The answers, without the pages. -/
def answers (course : Course) : List Answer := course.map fun pulled => pulled.map Prod.fst

/-- Rows after which certain pages are held. -/
def ofRows (held : Finset PageId) (rows : List Row) : Course := rows.map fun row => .ok (row, held)

/-- What is left of a pull after a test. -/
def keep (test : Row → Except Failure Bool) : Pulled → Course
  | .error e => [.error e]
  | .ok (row, held) =>
    match test row with
    | .error e => [.error e]
    | .ok true => [.ok (row, held)]
    | .ok false => []

/-- The course of the rows that pass a test. -/
def filter (test : Row → Except Failure Bool) (course : Course) : Course :=
  course.flatMap (keep test)

/-- What is pulled on the right, put behind a left row for which some pages are held. -/
def behind (schema : Schema) (l : Row) (held : Finset PageId) : Pulled → Pulled
  | .error e => .error e
  | .ok (r, held') => (Row.append schema l r).map fun row => (row, held ∪ held')

/-- The pairs of a left row with the right rows that pass a test with it. -/
def pair (schema : Schema) (test : Row → Row → Except Failure Bool) (l : Row)
    (held : Finset PageId) (right : Course) : Course :=
  (filter (test l) right).map (behind schema l held)

/-- The pairs of a left and a right row that pass a test.  What comes from the right depends on the
pages that are held for the left row. -/
def join (schema : Schema) (test : Row → Row → Except Failure Bool) (left : Course)
    (right : Finset PageId → Course) : Course :=
  left.flatMap fun pulled =>
    match pulled with
    | .error e => [.error e]
    | .ok (l, held) => pair schema test l held (right held)

lemma answers_ofRows (held : Finset PageId) (rows : List Row) :
    answers (ofRows held rows) = Answers.ofRows rows := List.map_map

lemma filter_cons (test : Row → Except Failure Bool) (pulled : Pulled) (rest : Course) :
    filter test (pulled :: rest) = keep test pulled ++ filter test rest := rfl

/-! ## Courses without failures -/

/-- No pull fails. -/
def Clean (course : Course) : Prop := ∀ e, .error e ∉ course

variable {test : Row → Except Failure Bool} {course course' : Course}

lemma Clean.of_filter (h : Clean (filter test course)) : Clean course :=
  fun e he => h e (List.mem_flatMap.2 ⟨_, he, List.mem_singleton_self _⟩)

lemma filter_perm (h : course'.Perm course) : (filter test course').Perm (filter test course) :=
  h.flatMap_right _

section

variable {schema : Schema} {test : Row → Row → Except Failure Bool} {left left' : Course}
  {right right' : Finset PageId → Course}

lemma Clean.of_pair {l : Row} {held : Finset PageId} (h : Clean (pair schema test l held course)) :
    Clean course :=
  Clean.of_filter fun e he => h e (List.mem_map_of_mem he)

lemma Clean.of_join (h : Clean (join schema test left right)) :
    Clean left ∧ ∀ l held, .ok (l, held) ∈ left → Clean (right held) :=
  ⟨fun e he => h e (List.mem_flatMap.2 ⟨_, he, List.mem_singleton_self _⟩),
    fun _ _ hmem => Clean.of_pair fun e he => h e (List.mem_flatMap.2 ⟨_, hmem, he⟩)⟩

/-- If no pull of a join fails, its children in another order give the same pairs.  Of the right
child this only has to be known where nothing fails. -/
lemma join_perm (h : Clean (join schema test left right)) (hleft : left'.Perm left)
    (hright : ∀ held, Clean (right held) → (right' held).Perm (right held)) :
    (join schema test left' right').Perm (join schema test left right) := by
  obtain ⟨-, hclean⟩ := h.of_join
  refine hleft.flatMap fun pulled hmem => ?_
  rcases pulled with e | ⟨l, held⟩
  · exact .refl _
  · exact (filter_perm (hright held (hclean l held (hleft.mem_iff.1 hmem)))).map _

end

/-- Where all answers of a course can be used, nothing fails in it. -/
lemma clean_of_mapM {β : Type} {f : Answer → Except Failure β} (hf : ∀ e, f (.error e) = .error e)
    {values : List β} (h : (answers course).mapM f = .ok values) : Clean course := by
  intro e he
  obtain ⟨i, hi, heq⟩ := List.getElem_of_mem he
  have hlt : i < (answers course).length := (List.length_map _).symm ▸ hi
  have hvalue := getElem_of_mapM_eq_ok h i hlt (length_of_mapM_eq_ok h ▸ hlt)
  simp only [answers, List.getElem_map, heq] at hvalue
  cases (hf e).symm.trans hvalue

lemma answers_perm (h : course'.Perm course) : (answers course').Perm (answers course) := h.map _

end Course

end RowStore
