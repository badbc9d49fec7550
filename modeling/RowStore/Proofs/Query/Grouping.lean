import Mathlib.Data.List.Induction
import RowStore.Data.Results
import RowStore.Query.Evaluation

/-!
# Aggregators compute groups

An aggregator takes in one row after the other and changes the tally of the group that the row
belongs to.  Here it is shown that this gives, for every group, the aggregate of its numbers:
`Aggregation.results_fold` says that running an aggregator over a list of answers ends with what
`Aggregation.summarize` says.

There are three steps.  Changing the value of the key of each entry in turn leaves for every key the
fold of its own values, and the keys in the order in which they first occurred
(`Assoc.entries_gather`).  The fold of the numbers of a group into a tally reads as the aggregate of
the numbers (`Tally.result_ofNumbers`).  And the loop of an aggregator, which may fail at any row,
first finds out what the rows contribute and then gathers it (`foldlM_bind`).
-/

namespace RowStore

/-! ## Gathering values by keys -/

namespace Assoc

variable {κ ν β : Type} [DecidableEq κ]

/-- Takes the value of an entry into the value of its key. -/
def absorb (step : β → ν → β) (init : β) (m : Assoc κ β) (e : κ × ν) : Assoc κ β :=
  m.insert e.1 (step ((m.find? e.1).getD init) e.2)

/-- For every key, its values folded. -/
def gather (step : β → ν → β) (init : β) (es : List (κ × ν)) : Assoc κ β :=
  es.foldl (absorb step init) ∅

/-- The values of a key. -/
def valuesAt (k : κ) (es : List (κ × ν)) : List ν := (es.filter fun e => e.1 = k).map Prod.snd

lemma valuesAt_append (k : κ) (es fs : List (κ × ν)) :
    valuesAt k (es ++ fs) = valuesAt k es ++ valuesAt k fs := by
  rw [valuesAt, List.filter_append, List.map_append]
  rfl

lemma valuesAt_eq_nil {k : κ} {es : List (κ × ν)} (h : k ∉ es.map Prod.fst) :
    valuesAt k es = [] := by
  rw [valuesAt, List.map_eq_nil_iff, List.filter_eq_nil_iff]
  intro e he hk
  exact h (of_decide_eq_true hk ▸ List.mem_map_of_mem he)

variable (step : β → ν → β) (init : β)

lemma gather_concat (es : List (κ × ν)) (e : κ × ν) :
    gather step init (es ++ [e]) = (gather step init es).absorb step init e := by
  rw [gather, List.foldl_append]
  rfl

lemma find?_gather (es : List (κ × ν)) (k : κ) :
    (gather step init es).find? k =
      if k ∈ es.map Prod.fst then some ((valuesAt k es).foldl step init) else none := by
  induction es using List.reverseRecOn with
  | nil => rfl
  | append_singleton es e ih =>
    obtain ⟨j, x⟩ := e
    have hold : (gather step init es).find? k = none → valuesAt k es = [] := by
      rw [ih]
      split
      · intro h
        cases h
      · next hk => exact fun _ => valuesAt_eq_nil hk
    rw [gather_concat, absorb, find?_insert, valuesAt_append, List.foldl_append, List.map_append]
    by_cases hj : j = k
    · subst hj
      have hvalue : (gather step init es).find? j =
          if j ∈ es.map Prod.fst then some ((valuesAt j es).foldl step init) else none := ih
      have hlast : valuesAt j [(j, x)] = [x] := by simp [valuesAt]
      rw [if_pos rfl, if_pos (by simp), hlast]
      rcases hfind : (gather step init es).find? j with _ | value
      · rw [hold hfind]
        rfl
      · rw [hfind] at hvalue
        split at hvalue <;> cases hvalue
        rfl
    · have hlast : valuesAt k [(j, x)] = [] := by simp [valuesAt, hj]
      have hmem : k ∈ es.map Prod.fst ++ [(j, x)].map Prod.fst ↔ k ∈ es.map Prod.fst := by
        simp [Ne.symm hj]
      rw [if_neg hj, ih, hlast]
      simp only [hmem, List.foldl_nil]

lemma keys_gather (es : List (κ × ν)) :
    (gather step init es).keys = (es.map Prod.fst).eraseDups := by
  induction es using List.reverseRecOn with
  | nil => rfl
  | append_singleton es e ih =>
    have hkeys : ((gather step init es).absorb step init e).keys =
        if e.1 ∈ (gather step init es).keys then (gather step init es).keys
        else (gather step init es).keys ++ [e.1] := map_fst_putIn _ _ _
    rw [gather_concat, hkeys, ih, List.map_append, List.eraseDups_append]
    by_cases he : e.1 ∈ es.map Prod.fst
    · rw [if_pos (List.mem_eraseDups.2 he)]
      simp [List.removeAll, he]
    · rw [if_neg (fun h => he (List.mem_eraseDups.1 h))]
      simp [List.removeAll, he, List.eraseDups_cons]

lemma entries_eq_map {m : Assoc κ β} {g : κ → β}
    (h : ∀ k ∈ m.keys, m.find? k = some (g k)) : m.entries = m.keys.map fun k => (k, g k) := by
  rw [keys, List.map_map]
  refine (List.map_id m.entries).symm.trans (List.map_congr_left ?_)
  rintro ⟨k, b⟩ he
  have hfind : m.find? k = some b := (m.find?_eq_some_iff k b).2 he
  have hg := h k (List.mem_map_of_mem (f := Prod.fst) he)
  rw [hfind] at hg
  exact congrArg (Prod.mk k) (Option.some.inj hg)

/-- Gathering lists the keys as they first occur, each with the fold of its values. -/
lemma entries_gather (es : List (κ × ν)) :
    (gather step init es).entries =
      (es.map Prod.fst).eraseDups.map fun k => (k, (valuesAt k es).foldl step init) := by
  rw [← keys_gather step init es]
  apply entries_eq_map
  intro k hk
  rw [keys_gather, List.mem_eraseDups] at hk
  rw [find?_gather, if_pos hk]

end Assoc

/-! ## Tallies -/

namespace Tally

lemma foldl_add (t : Tally) (numbers : List Int32) :
    numbers.foldl add t = ⟨t.count + Int32.ofNat numbers.length, t.sum + numbers.sum,
      numbers.foldl min t.least, numbers.foldl max t.greatest⟩ := by
  induction numbers generalizing t with
  | nil => simp
  | cons n rest ih =>
    have hcount : t.count + 1 + Int32.ofNat rest.length =
        t.count + Int32.ofNat (rest.length + 1) := by
      rw [Int32.ofNat_add, Int32.add_assoc, Int32.add_comm 1]
      rfl
    have hleast : (if n < t.least then n else t.least) = min t.least n := by
      show _ = if t.least ≤ n then t.least else n
      by_cases h : n < t.least
      · rw [if_pos h, if_neg (Int32.not_le.2 h)]
      · rw [if_neg h, if_pos (Int32.not_lt.1 h)]
    have hgreatest : (if t.greatest < n then n else t.greatest) = max t.greatest n := by
      show _ = if t.greatest ≤ n then n else t.greatest
      by_cases h : t.greatest < n
      · rw [if_pos h, if_pos (Int32.le_of_lt h)]
      · rw [if_neg h]
        split
        · next hle => exact Int32.le_antisymm hle (Int32.not_lt.1 h)
        · rfl
    rw [List.foldl_cons, ih, List.foldl_cons, List.foldl_cons, List.length_cons, List.sum_cons]
    simp only [add, hcount, hleast, hgreatest, Int32.add_assoc]

/-- A tally reads as the aggregate of the numbers that it was made from. -/
lemma result_foldl_add (op : AggregateOp) (numbers : List Int32) :
    (numbers.foldl add empty).result op = op.value numbers := by
  have hleast : ∀ n : Int32, min Int32.maxValue n = n := by
    intro n
    show (if Int32.maxValue ≤ n then Int32.maxValue else n) = n
    split
    · next h => exact Int32.le_antisymm h n.le_maxValue
    · rfl
  have hgreatest : ∀ n : Int32, max Int32.minValue n = n := by
    intro n
    show (if Int32.minValue ≤ n then n else Int32.minValue) = n
    rw [if_pos n.minValue_le]
  rw [foldl_add]
  simp only [result, AggregateOp.value, empty, Int32.zero_add]
  rcases numbers with _ | ⟨n, rest⟩
  · rfl
  · rw [List.foldl_cons, List.foldl_cons, hleast, hgreatest, List.min?_cons', List.max?_cons']
    rfl

end Tally

/-! ## Aggregators -/

/-- A loop whose step finds out what a row contributes and then takes it in. -/
lemma foldlM_bind {β ε : Type} {f : β → Row → Except Failure β} {entry : Row → Except Failure ε}
    {put : β → ε → β} {P : β → Prop} (hput : ∀ b e, P b → P (put b e))
    (hf : ∀ b r, P b → f b r = (entry r).map (put b)) {b : β} (hb : P b) (answers : List Answer) :
    answers.foldlM (fun b answer => answer.bind (f b)) b =
      (answers.mapM fun answer : Answer => answer.bind entry).map fun es => es.foldl put b := by
  induction answers generalizing b with
  | nil => rfl
  | cons head tail ih =>
    rw [List.foldlM_cons, List.mapM_cons]
    rcases head with e | row
    · rfl
    · show (f b row).bind _ = ((entry row).bind _).map _
      rw [hf b row hb]
      rcases entry row with e | x
      · rfl
      · show tail.foldlM _ (put b x) = _
        rw [ih (hput b x hb)]
        show _ = Except.map _ (Except.bind (tail.mapM _) fun es => .ok (x :: es))
        rcases tail.mapM fun answer : Answer => answer.bind entry with e | es <;> rfl

namespace Aggregator

/-- Takes in what a row contributes. -/
def put : Aggregator → GroupKey × Int32 → Aggregator
  | numbers a, e =>
    numbers { a with groups := a.groups.absorb Tally.add .empty e, merged := a.merged + 1 }
  | texts a, e =>
    texts { a with counts := a.counts.absorb (fun c _ => c + 1) 0 e, merged := a.merged + 1 }

/-- An aggregator was made for an aggregation. -/
def For (g : Aggregation) : Aggregator → Prop
  | numbers a => g.type = .int ∧ a.group = g.group ∧ a.field = g.field ∧ a.op = g.op ∧
      a.schema = g.schema
  | texts a => (∃ capacity, g.type = .text capacity) ∧ a.group = g.group ∧ g.op = .count ∧
      a.schema = g.schema

variable {g : Aggregation}

lemma For.put {a : Aggregator} (h : a.For g) (e : GroupKey × Int32) : (a.put e).For g := by
  rcases a with a | a <;> exact h

/-- Merging a row is taking in what it contributes. -/
lemma For.merge {a : Aggregator} (h : a.For g) (r : Row) : a.merge r = (g.entry r).map a.put := by
  rcases a with ⟨group, field, op, schema, groups, merged⟩ | ⟨group, schema, counts, merged⟩
  · obtain ⟨htype, hgroup, hfield, -⟩ := h
    obtain rfl : group = g.group := hgroup
    obtain rfl : field = g.field := hfield
    simp only [Aggregator.merge, NumberAggregator.merge, NumberAggregator.numberOf,
      Aggregation.entry, htype]
    rcases r.get g.field with e | _ | n | text
    · rfl
    · rfl
    · show Except.map _ (Except.bind (GroupKey.of r g.group) _) =
        Except.map _ (Except.bind (GroupKey.of r g.group) _)
      rcases GroupKey.of r g.group with e | key <;> rfl
    · rfl
  · obtain ⟨⟨capacity, htype⟩, hgroup, -⟩ := h
    obtain rfl : group = g.group := hgroup
    simp only [Aggregator.merge, TextAggregator.merge, Aggregation.entry, htype]
    rcases GroupKey.of r g.group with e | key <;> rfl

lemma eq_of_aggregator {a : Aggregator} (h : g.aggregator = .ok a) :
    g.type = .int ∧ a = numbers ⟨g.group, g.field, g.op, g.schema, ∅, 0⟩ ∨
      (∃ capacity, g.type = .text capacity) ∧ g.op = .count ∧
        a = texts ⟨g.group, g.schema, ∅, 0⟩ := by
  rcases htype : g.type with _ | capacity <;>
    simp only [Aggregation.aggregator, Aggregator.create, htype] at h
  · cases h
    exact .inl ⟨rfl, rfl⟩
  · rw [TextAggregator.create] at h
    split at h
    · next hop =>
      cases h
      exact .inr ⟨⟨capacity, rfl⟩, hop, rfl⟩
    · cases h

lemma for_aggregator {a : Aggregator} (h : g.aggregator = .ok a) : a.For g := by
  rcases eq_of_aggregator h with ⟨htype, rfl⟩ | ⟨htype, hop, rfl⟩
  · exact ⟨htype, rfl, rfl, rfl, rfl⟩
  · exact ⟨htype, rfl, hop, rfl⟩

/-- Taking in one contribution after the other gathers them. -/
lemma foldl_put_numbers (a : NumberAggregator) (es : List (GroupKey × Int32)) :
    es.foldl put (numbers a) = numbers { a with
      groups := es.foldl (Assoc.absorb Tally.add .empty) a.groups
      merged := a.merged + es.length } := by
  induction es generalizing a with
  | nil => rfl
  | cons e rest ih =>
    rw [List.foldl_cons, put, ih, List.length_cons, List.foldl_cons, Nat.add_assoc,
      Nat.add_comm 1]

lemma foldl_put_texts (a : TextAggregator) (es : List (GroupKey × Int32)) :
    es.foldl put (texts a) = texts { a with
      counts := es.foldl (Assoc.absorb (fun c _ => c + 1) 0) a.counts
      merged := a.merged + es.length } := by
  induction es generalizing a with
  | nil => rfl
  | cons e rest ih =>
    rw [List.foldl_cons, put, ih, List.length_cons, List.foldl_cons, Nat.add_assoc,
      Nat.add_comm 1]

end Aggregator

/-! ## Results -/

namespace Aggregation

variable (g : Aggregation)

/-- What a row contributes, it contributes to its group. -/
lemma key_of_entry {r : Row} {e : GroupKey × Int32} (h : g.entry r = .ok e) :
    GroupKey.of r g.group = .ok e.1 := by
  rcases hkey : GroupKey.of r g.group with e' | key <;> rw [entry, hkey] at h
  · split at h
    · cases h
    · rcases hget : r.get g.field with e' | _ | n | text <;> rw [hget] at h <;> cases h
  · split at h
    · cases h
      rfl
    · rcases hget : r.get g.field with e' | _ | n | text <;> rw [hget] at h <;> cases h
      rfl

/-- The results that are read from what was gathered, also when nothing was. -/
lemma results_gather {β : Type} (step : β → Int32 → β) (init : β) (read : β → Int32)
    (hread : ∀ numbers, read (numbers.foldl step init) = g.op.value numbers)
    {es : List (GroupKey × Int32)} (hwhole : g.group = none → ∀ e ∈ es, e.1 = .whole) :
    (if g.group = none ∧ (Assoc.gather step init es).entries = [] then
        return [← GroupKey.whole.toRow g.schema 0]
      else (Assoc.gather step init es).entries.mapM fun e => e.1.toRow g.schema (read e.2)) =
      (g.keys es).mapM fun key => key.toRow g.schema (g.op.value (numbers key es)) := by
  have hentries : (Assoc.gather step init es).entries =
      (es.map Prod.fst).eraseDups.map fun k => (k, (numbers k es).foldl step init) :=
    Assoc.entries_gather step init es
  rw [hentries, keys]
  rcases hgroup : g.group with _ | index
  · rcases es with _ | ⟨e, rest⟩
    · rfl
    · have hdups : ((e :: rest).map Prod.fst).eraseDups = [.whole] := by
        rw [List.map_cons, List.eraseDups_cons, hwhole hgroup e List.mem_cons_self]
        refine congrArg (GroupKey.whole :: List.eraseDups ·) (List.filter_eq_nil_iff.2 ?_)
        intro key hkey
        obtain ⟨e', he', rfl⟩ := List.mem_map.1 hkey
        simp [hwhole hgroup e' (List.mem_cons_of_mem e he')]
      rw [hdups, if_neg (by simp)]
      simp only [List.map_cons, List.map_nil, List.mapM_cons, List.mapM_nil, hread]
  · rw [if_neg (fun h => by cases h.1), List.mapM_map]
    simp only [Function.comp_def, hread]

/-- The aggregator of texts keeps count. -/
lemma foldl_count (numbers : List Int32) (c : Int32) :
    numbers.foldl (fun c _ => c + 1) c = c + Int32.ofNat numbers.length := by
  induction numbers generalizing c with
  | nil => simp
  | cons n rest ih =>
    rw [List.foldl_cons, ih, List.length_cons, Int32.ofNat_add, Int32.add_assoc, Int32.add_comm 1]
    rfl

/-- **An aggregator computes the aggregates of the groups of the rows that it takes in.** -/
theorem results_fold {initial : Aggregator} (h : g.aggregator = .ok initial)
    (answers : List Answer) :
    (answers.foldlM (fun a (answer : Answer) => answer.bind a.merge) initial).bind
      Aggregator.results = g.summarize answers := by
  have hfor := Aggregator.for_aggregator h
  rw [foldlM_bind (P := Aggregator.For g) (fun b e hb => hb.put e) (fun b r hb => hb.merge r) hfor,
    summarize, h]
  show _ = Except.bind (answers.mapM _) _
  rcases hes : answers.mapM fun answer : Answer => answer.bind g.entry with e | es
  · rfl
  · have hwhole : g.group = none → ∀ e ∈ es, e.1 = .whole := by
      intro hgroup e he
      obtain ⟨answer, -, hentry⟩ := mem_of_mapM_eq_ok hes he
      rcases answer with e' | row
      · cases hentry
      · have hkey := g.key_of_entry hentry
        rw [hgroup] at hkey
        exact (Except.ok.inj hkey).symm
    show (es.foldl Aggregator.put initial).results = _
    rcases Aggregator.eq_of_aggregator h with ⟨-, rfl⟩ | ⟨-, hop, rfl⟩
    · rw [Aggregator.foldl_put_numbers]
      exact g.results_gather Tally.add .empty (fun t => t.result g.op)
        (Tally.result_foldl_add g.op) hwhole
    · rw [Aggregator.foldl_put_texts]
      refine g.results_gather (fun c _ => c + 1) 0 id (fun numbers => ?_) hwhole
      show numbers.foldl _ 0 = _
      rw [foldl_count, Int32.zero_add, hop, AggregateOp.value]
      split
      · next hzero => exact hzero
      · rfl

end Aggregation

end RowStore
