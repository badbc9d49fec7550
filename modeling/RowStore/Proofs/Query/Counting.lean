import RowStore.Proofs.Query.Tallying

/-!
# Two ways to count

The rows of a group are counted by an aggregator of numbers, which keeps sums and bounds along with
the count, and by an aggregator of texts, which keeps nothing but the count and does not look at the
field that it counts.  Where that field holds a number in every row, the two cannot be told apart.

The second one is the first with all figures but the count forgotten
(`NumberAggregator.counting`).  Forgetting goes along with taking in a row
(`NumberAggregator.merge_counting`) and changes no result of a count
(`NumberAggregator.results_counting`); so the two stay alike whatever rows are offered to them
(`Aggregator.history_count`).  Counts in 32 bits that come round to zero are no exception: the first
aggregator takes such a group for empty and tells zero, and zero is what the second one has counted.
-/

namespace RowStore

/-! ## Maps with other values -/

namespace Assoc

variable {κ ν μ : Type} (f : ν → μ) (m : Assoc κ ν)

/-- The map with every value looked at through a function. -/
def mapValues : Assoc κ μ where
  entries := m.entries.map (Prod.map id f)
  nodup := by
    rw [List.map_map]
    exact m.nodup

variable [DecidableEq κ] (k : κ)

lemma lookupIn_map (l : List (κ × ν)) :
    lookupIn k (l.map (Prod.map id f)) = (lookupIn k l).map f := by
  induction l with
  | nil => rfl
  | cons e rest ih =>
    rw [List.map_cons, Prod.map, id, lookupIn, lookupIn, ih]
    split <;> rfl

lemma putIn_map (v : ν) (l : List (κ × ν)) :
    (putIn k v l).map (Prod.map id f) = putIn k (f v) (l.map (Prod.map id f)) := by
  induction l with
  | nil => rfl
  | cons e rest ih =>
    rw [putIn, List.map_cons, Prod.map, id, putIn, ← ih]
    split <;> rfl

lemma find?_mapValues : (m.mapValues f).find? k = (m.find? k).map f :=
  lookupIn_map f k m.entries

lemma mapValues_insert (v : ν) : (m.insert k v).mapValues f = (m.mapValues f).insert k (f v) := by
  rw [mapValues, insert, mk.injEq]
  exact putIn_map f k v m.entries

end Assoc

/-! ## Forgetting all but the count -/

/-- The fields that a count looks at exist, and the counted one holds a number. -/
structure Row.Countable (r : Row) (group : Option ℕ) (field : ℕ) : Prop
    extends r.Covers group field where
  number : ∃ n, r.fields[field]? = some (some (.int n))

namespace NumberAggregator

variable (a : NumberAggregator)

/-- The aggregator that keeps only the counts. -/
def counting : TextAggregator := ⟨a.group, a.schema, a.groups.mapValues Tally.count, a.merged⟩

/-- Where there is a number, both take a row into the same group, or both refuse it alike. -/
lemma merge_counting {r : Row} (h : ∃ n, r.fields[a.field]? = some (some (.int n))) :
    a.counting.merge r = (a.merge r).map counting := by
  obtain ⟨n, hn⟩ := h
  rw [a.merge_of_get _ (Row.get_of_getElem? hn), TextAggregator.merge, counting]
  show Except.bind (GroupKey.of r a.group) _ = _
  rcases GroupKey.of r a.group with e | key
  · rfl
  · have hcount : ((a.groups.mapValues Tally.count).find? key).getD 0 + 1 =
        (((a.groups.find? key).getD .empty).add n).count := by
      rw [Assoc.find?_mapValues]
      rcases a.groups.find? key with _ | t <;> rfl
    show Except.ok (TextAggregator.mk _ _ _ _) = .ok (counting (a.absorb (key, n)))
    rw [hcount, ← Assoc.mapValues_insert]
    rfl

/-- A count that is zero is the result of a group that is taken for empty. -/
lemma results_counting (hop : a.op = .count) : a.counting.results = a.results := by
  have hresult : ∀ t : Tally, t.result .count = t.count := by
    intro t
    rw [Tally.result]
    split
    · next h => exact h.symm
    · rfl
  rw [results, TextAggregator.results, hop]
  simp only [counting, Assoc.mapValues, List.map_eq_nil_iff, List.mapM_map]
  simp only [Function.comp_def, Prod.map, id, hresult]

end NumberAggregator

/-! ## Histories -/

namespace Aggregator

/-- Takes in a row if that is possible. -/
def offer (a : Aggregator) (r : Row) : Aggregator :=
  match a.merge r with
  | .ok taken => taken
  | .error _ => a

/-- What shows of an aggregator: the number of rows that it took in, and its results. -/
structure View where
  merged : ℕ
  results : Except Failure (List Row)

/-- What shows of an aggregator. -/
def view (a : Aggregator) : View := ⟨a.merged, a.results⟩

/-- What shows when a row is offered: whether it is taken in, and the view after it. -/
structure Turn where
  answer : Except Failure Unit
  after : View

/-- What shows while rows are offered. -/
def history : Aggregator → List Row → List Turn
  | _, [] => []
  | a, r :: rest => ⟨(a.merge r).map fun _ => (), (a.offer r).view⟩ :: (a.offer r).history rest

/-- Each turn is about a row that is offered after those before it. -/
lemma exists_of_mem_history {a : Aggregator} {rows : List Row} {turn : Turn}
    (h : turn ∈ a.history rows) : ∃ front r, front ++ [r] <+: rows ∧
      turn = ⟨((front.foldl offer a).merge r).map fun _ => (),
        ((front ++ [r]).foldl offer a).view⟩ := by
  induction rows generalizing a with
  | nil => cases h
  | cons r rest ih =>
    rcases List.mem_cons.1 h with rfl | h
    · exact ⟨[], r, ⟨rest, rfl⟩, rfl⟩
    · obtain ⟨front, r', hfront, rfl⟩ := ih h
      exact ⟨r :: front, r', List.cons_prefix_cons.2 ⟨rfl, hfront⟩, rfl⟩

lemma foldl_offer_numbers (a : NumberAggregator) (rows : List Row) :
    rows.foldl offer (numbers a) = numbers (rows.foldl NumberAggregator.offer a) := by
  refine List.foldl_hom numbers fun a r => ?_
  rw [offer, merge, NumberAggregator.offer]
  rcases a.merge r with e | taken <;> rfl

/-- One aggregator counts numbers, and the other keeps its counts. -/
inductive Counts (field : ℕ) : Aggregator → Aggregator → Prop
  | intro {a : NumberAggregator} (hop : a.op = .count) (hfield : a.field = field) :
    Counts field (numbers a) (texts a.counting)

namespace Counts

variable {field : ℕ} {a b : Aggregator} {r : Row}

lemma view_eq (h : Counts field a b) : a.view = b.view := by
  obtain ⟨hop, -⟩ := h
  exact congrArg (View.mk _) (NumberAggregator.results_counting _ hop).symm

/-- A row leads to the same answer from both, and they stay related. -/
lemma merge (h : Counts field a b) (hr : ∃ n, r.fields[field]? = some (some (.int n))) :
    ((a.merge r).map fun _ => ()) = ((b.merge r).map fun _ => ()) ∧
      Counts field (a.offer r) (b.offer r) := by
  obtain @⟨a, hop, rfl⟩ := h
  have hmerge := a.merge_counting hr
  obtain ⟨n, hn⟩ := hr
  have hkept := a.merge_of_get _ (Row.get_of_getElem? hn)
  rw [offer, offer, Aggregator.merge, Aggregator.merge, hmerge, hkept]
  rcases GroupKey.of r a.group with e | key
  · exact ⟨rfl, ⟨hop, rfl⟩⟩
  · exact ⟨rfl, @intro _ (a.absorb (key, n)) hop rfl⟩

/-- By induction on the rows: what one row preserves, all of them do. -/
lemma history_eq (h : Counts field a b) {rows : List Row}
    (hrows : ∀ r ∈ rows, ∃ n, r.fields[field]? = some (some (.int n))) :
    a.history rows = b.history rows := by
  induction rows generalizing a b with
  | nil => rfl
  | cons r rest ih =>
    obtain ⟨hanswer, hnext⟩ := h.merge (hrows r List.mem_cons_self)
    rw [history, history, hanswer, hnext.view_eq,
      ih hnext fun r hr => hrows r (List.mem_cons_of_mem _ hr)]

end Counts

section

variable {group : Option ℕ} {field : ℕ} {schema : Schema} {rows : List Row} {turn : Turn}

/-- A row is taken in, or refused for a value that is not there. -/
lemma answer_of_mem_history (hrows : ∀ r ∈ rows, r.Covers group field)
    (h : turn ∈ (numbers (.create group field .count schema)).history rows) :
    turn.answer = .ok () ∨ ∃ e, turn.answer = .error e ∧ e.IsMismatch := by
  obtain ⟨front, r, hfront, rfl⟩ := exists_of_mem_history h
  have hbefore : ∀ r' ∈ front, r'.Covers group field := fun r' hr' =>
    hrows r' (hfront.subset (List.mem_append_left _ hr'))
  rw [foldl_offer_numbers]
  set a := NumberAggregator.ofRows group field .count schema front with ha
  have hr : r.Covers a.group a.field := by
    rw [ha, NumberAggregator.ofRows_eq hbefore]
    exact hrows r (hfront.subset List.mem_concat_self)
  show ((a.merge r).map numbers).map _ = _ ∨ ∃ e, ((a.merge r).map numbers).map _ = _ ∧ _
  rcases a.merge_of_covers hr with ⟨-, e, -, hmerge⟩ | ⟨-, -, e, hmerge, he⟩ <;> rw [hmerge]
  · exact .inl rfl
  · exact .inr ⟨e, rfl, he⟩

lemma results_of_mem_history (hschema : schema.width = if group.isSome then 2 else 1)
    (hrows : ∀ r ∈ rows, r.Covers group field)
    (h : turn ∈ (numbers (.create group field .count schema)).history rows) :
    ∃ told, turn.after.results = .ok told := by
  obtain ⟨front, r, hfront, rfl⟩ := exists_of_mem_history h
  show ∃ told, ((front ++ [r]).foldl offer _).results = .ok told
  rw [foldl_offer_numbers]
  exact ⟨_, NumberAggregator.results_ofRows hschema fun r' hr' => hrows r' (hfront.subset hr')⟩

end

/-- **The two aggregators that count cannot be told apart.**  They are made for the same group
field, the same field to count and the same schema of results, and any rows are offered to them in
which that field holds a number.  From the beginning on and after every row they have taken in as
many rows and have the same results, and each row is taken in by both, or refused by both for the
same value that is missing.  The counts may come round to zero.  If the schema has a column for the
group, if there is one, and a column for the count, there always are results. -/
theorem history_count (group : Option ℕ) (field capacity : ℕ) (schema : Schema) {rows : List Row}
    (hrows : ∀ r ∈ rows, r.Countable group field) :
    ∃ a b, create .int group field .count schema = .ok a ∧
      create (.text capacity) group field .count schema = .ok b ∧
      a.view = b.view ∧ a.history rows = b.history rows ∧
      (∀ turn ∈ a.history rows, turn.answer = .ok () ∨
        ∃ e, turn.answer = .error e ∧ e.IsMismatch) ∧
      ((schema.width = if group.isSome then 2 else 1) →
        (∃ told, a.view.results = .ok told) ∧
          ∀ turn ∈ a.history rows, ∃ told, turn.after.results = .ok told) := by
  have hcounts : Counts field (numbers (.create group field .count schema))
      (texts ⟨group, schema, ∅, 0⟩) := .intro rfl rfl
  have hcovers : ∀ r ∈ rows, r.Covers group field := fun r hr => (hrows r hr).toCovers
  refine ⟨_, _, rfl, rfl, hcounts.view_eq, hcounts.history_eq fun r hr => (hrows r hr).number,
    fun turn => answer_of_mem_history hcovers, fun hschema => ⟨?_, fun turn =>
      results_of_mem_history hschema hcovers⟩⟩
  exact ⟨_, @NumberAggregator.results_ofRows group field .count schema [] hschema
    (List.forall_mem_nil _)⟩

/-- Tickets with a price each, one of them without a kind. -/
def pricedRows : List Row :=
  [⟨NumberAggregator.tickets, [some (.int 1), some (.int 7)], none⟩,
    ⟨NumberAggregator.tickets, [some (.text "1"), some (.int (-4))], none⟩,
    ⟨NumberAggregator.tickets, [none, some (.int 9)], none⟩,
    ⟨NumberAggregator.tickets, [some (.int 1), some (.int 2)], none⟩]

theorem history_count_tickets :
    (∀ r ∈ pricedRows, r.Countable (some 0) 1) ∧
    NumberAggregator.tickets.width = (if (some 0).isSome then 2 else 1) ∧
    ∃ a b, create .int (some 0) 1 .count NumberAggregator.tickets = .ok a ∧
      create (.text 128) (some 0) 1 .count NumberAggregator.tickets = .ok b ∧
      a.view = b.view ∧ a.history pricedRows = b.history pricedRows ∧
      ∀ turn ∈ a.history pricedRows, ∃ told, turn.after.results = .ok told := by
  have hrows : ∀ r ∈ pricedRows, r.Countable (some 0) 1 := by
    intro r hr
    have hwidth : r.width = 2 := (by decide : ∀ r ∈ pricedRows, r.width = 2) r hr
    refine ⟨⟨by rw [hwidth]; decide, fun index hindex => ?_⟩, ?_⟩
    · cases hindex
      rw [hwidth]
      decide
    · simp only [pricedRows, List.mem_cons, List.not_mem_nil, or_false] at hr
      rcases hr with rfl | rfl | rfl | rfl <;> exact ⟨_, rfl⟩
  have hschema : NumberAggregator.tickets.width = if (some 0).isSome then 2 else 1 := rfl
  obtain ⟨a, b, ha, hb, hview, hhistory, -, hresults⟩ :=
    history_count (some 0) 1 128 NumberAggregator.tickets hrows
  exact ⟨hrows, hschema, a, b, ha, hb, hview, hhistory, (hresults hschema).2⟩

end Aggregator

end RowStore
