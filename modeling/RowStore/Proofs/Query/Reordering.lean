import Mathlib.Data.List.Perm.Basic
import RowStore.Proofs.Query.Grouping
import RowStore.Query.Evaluation

/-!
# The order of groups

A plan may evaluate to different lists of answers, since the groups of an aggregation may be listed
in any order.  This is all that can differ: whether a plan can be opened does not depend on it, and
what it hands out is the same up to order (`Plan.Evaluates.exists_perm`).  A plan that does not
group its rows has one evaluation only (`Plan.Evaluates.eq_of_ungrouped`).

The order of its input makes no difference to an aggregation, since counts, sums, least and greatest
numbers do not depend on it (`Aggregation.exists_summarize_of_perm`).
-/

namespace RowStore

/-! ## Lists of results -/

/-- Entries in another order have their answers in another order. -/
theorem exists_mapM_of_perm {α β ε : Type} {f : α → Except ε β} {l l' : List α} {bs : List β}
    (hperm : l'.Perm l) (h : l.mapM f = .ok bs) : ∃ bs', l'.mapM f = .ok bs' ∧ bs'.Perm bs := by
  obtain ⟨bs', hbs', hperm'⟩ := List.perm_comp_forall₂ hperm (mapM_eq_ok_iff.1 h)
  exact ⟨bs', mapM_eq_ok_iff.2 hbs', hperm'⟩

namespace Answers

lemma filter_perm {test : Row → Except Failure Bool} {l l' : List Answer} (h : l'.Perm l) :
    (filter test l').Perm (filter test l) :=
  h.flatMap_right _

lemma pair_perm {schema : Schema} {test : Row → Row → Except Failure Bool}
    {right right' : List Answer} (h : right'.Perm right) (l : Row) :
    (pair schema test right' l).Perm (pair schema test right l) :=
  (filter_perm h).map _

lemma join_perm {schema : Schema} {test : Row → Row → Except Failure Bool}
    {left left' right right' : List Answer} (hleft : left'.Perm left) (hright : right'.Perm right) :
    (join schema test left' right').Perm (join schema test left right) := by
  refine hleft.flatMap fun answer _ => ?_
  rcases answer with e | l
  · exact .refl _
  · exact pair_perm hright l

end Answers

/-! ## Aggregations -/

section

variable {numbers numbers' : List Int32}

lemma sum_eq_of_perm (h : numbers'.Perm numbers) : numbers'.sum = numbers.sum := by
  have : LeftCommutative (α := Int32) (β := Int32) (· + ·) :=
    ⟨fun a b c => by rw [← Int32.add_assoc, Int32.add_comm a b, Int32.add_assoc]⟩
  exact h.foldr_eq 0

instance instLawfulOrderMaxInt32 : Std.LawfulOrderMax Int32 where
  max_eq_or a b := by
    show (if a ≤ b then b else a) = a ∨ (if a ≤ b then b else a) = b
    split
    · exact .inr rfl
    · exact .inl rfl
  max_le_iff a b c := by
    show (if a ≤ b then b else a) ≤ c ↔ a ≤ c ∧ b ≤ c
    simp only [Int32.le_iff_toInt_le]
    split <;> omega

lemma min?_eq_of_perm (h : numbers'.Perm numbers) : numbers'.min? = numbers.min? := by
  apply Option.ext
  intro least
  rw [List.min?_eq_some_iff, List.min?_eq_some_iff]
  simp only [h.mem_iff]

lemma max?_eq_of_perm (h : numbers'.Perm numbers) : numbers'.max? = numbers.max? := by
  apply Option.ext
  intro greatest
  rw [List.max?_eq_some_iff, List.max?_eq_some_iff]
  simp only [h.mem_iff]

/-- The result of an aggregate function does not depend on the order of the numbers. -/
lemma AggregateOp.value_eq_of_perm (op : AggregateOp) (h : numbers'.Perm numbers) :
    op.value numbers' = op.value numbers := by
  simp only [value, h.length_eq, sum_eq_of_perm h, min?_eq_of_perm h, max?_eq_of_perm h]

end

namespace Aggregation

variable {a : Aggregation} {entries entries' : List (GroupKey × Int32)}

lemma numbers_perm (key : GroupKey) (h : entries'.Perm entries) :
    (numbers key entries').Perm (numbers key entries) :=
  (h.filter _).map _

lemma nodup_keys (a : Aggregation) (entries : List (GroupKey × Int32)) :
    (a.keys entries).Nodup := by
  rw [keys]
  split
  · simp
  · rw [← Assoc.keys_gather (fun count _ => count + 1) 0 entries]
    exact Assoc.nodup_keys _

lemma keys_perm (h : entries'.Perm entries) : (a.keys entries').Perm (a.keys entries) := by
  rw [List.perm_ext_iff_of_nodup (a.nodup_keys _) (a.nodup_keys _)]
  intro key
  rw [keys, keys]
  split
  · rfl
  · rw [List.mem_eraseDups, List.mem_eraseDups, (h.map Prod.fst).mem_iff]

lemma summarize_eq_ok_iff {answers : List Answer} {list : List Row} :
    a.summarize answers = .ok list ↔ (∃ initial, a.aggregator = .ok initial) ∧
      ∃ entries, (answers.mapM fun answer => answer.bind a.entry) = .ok entries ∧
        ((a.keys entries).mapM fun key =>
          key.toRow a.schema (a.op.value (numbers key entries))) = .ok list := by
  rw [summarize]
  rcases a.aggregator with e | initial
  · constructor
    · intro h
      cases h
    · rintro ⟨⟨_, h⟩, -⟩
      cases h
  · show Except.bind (answers.mapM fun answer => Except.bind answer a.entry) _ = .ok list ↔ _
    rcases answers.mapM (fun answer => Except.bind answer a.entry) with e | entries
    · constructor
      · intro h
        cases h
      · rintro ⟨-, _, h, -⟩
        cases h
    · constructor
      · exact fun h => ⟨⟨initial, rfl⟩, entries, rfl, h⟩
      · rintro ⟨-, _, h, h'⟩
        cases h
        exact h'

/-- Answers in another order have the same groups with the same results. -/
lemma exists_summarize_of_perm {answers answers' : List Answer} {list : List Row}
    (hperm : answers'.Perm answers) (h : a.summarize answers = .ok list) :
    ∃ list', a.summarize answers' = .ok list' ∧ list'.Perm list := by
  obtain ⟨hinitial, entries, hentries, hlist⟩ := summarize_eq_ok_iff.1 h
  obtain ⟨entries', hentries', hsame⟩ := exists_mapM_of_perm hperm hentries
  have hvalue : ∀ key, a.op.value (numbers key entries') = a.op.value (numbers key entries) :=
    fun key => a.op.value_eq_of_perm (numbers_perm key hsame)
  obtain ⟨list', hlist', hperm'⟩ := exists_mapM_of_perm (keys_perm hsame) hlist
  refine ⟨list', summarize_eq_ok_iff.2 ⟨hinitial, entries', hentries', ?_⟩, hperm'⟩
  simp only [hvalue]
  exact hlist'

/-- There is one result if rows are not grouped. -/
lemma length_summarize {answers : List Answer} {list : List Row} (hgroup : a.group = none)
    (h : a.summarize answers = .ok list) : list.length = 1 := by
  obtain ⟨-, entries, -, hlist⟩ := summarize_eq_ok_iff.1 h
  rw [length_of_mapM_eq_ok hlist, keys, hgroup]
  rfl

end Aggregation

/-! ## Plans -/

namespace Plan

/-- No aggregation of the plan groups its rows. -/
def Ungrouped : Plan → Prop
  | rows _ _ | scan _ => True
  | filter _ child => child.Ungrouped
  | join _ left right => left.Ungrouped ∧ right.Ungrouped
  | aggregate a child => a.group = none ∧ child.Ungrouped

namespace Evaluates

variable {c : Catalog} {d : Disk} {result result' : Except Failure (List Answer)}

lemma of_scan {t : TableScan} (h : Evaluates c d (.scan t) result) :
    ∃ file list, c.heapFile t.table = .ok file ∧ file.contents d = .ok list ∧
      result = .ok (Answers.ofRows list) := by
  cases h with
  | scan hfile hlist => exact ⟨_, _, hfile, hlist, rfl⟩

lemma of_filter {predicate : Predicate} {child : Plan}
    (h : Evaluates c d (.filter predicate child) result) :
    ∃ below, Evaluates c d child below ∧ result = below.map (Answers.filter predicate.test) := by
  cases h with
  | filter hchild => exact ⟨_, hchild, rfl⟩

lemma of_join {predicate : JoinPredicate} {left right : Plan}
    (h : Evaluates c d (.join predicate left right) result) :
    (∃ e, Evaluates c d left (.error e) ∧ result = .error e) ∨
      ∃ answers below, Evaluates c d left (.ok answers) ∧ Evaluates c d right below ∧
        result = below.map
          (Answers.join (left.schema.append right.schema) predicate.test answers) := by
  cases h with
  | join_left hleft => exact .inl ⟨_, hleft, rfl⟩
  | join hleft hright => exact .inr ⟨_, _, hleft, hright, rfl⟩

lemma of_aggregate {a : Aggregation} {child : Plan}
    (h : Evaluates c d (.aggregate a child) result) :
    ∃ below, Evaluates c d child below ∧
      ((∃ list arranged : List Row, below.bind a.summarize = .ok list ∧ arranged.Perm list ∧
          result = .ok (Answers.ofRows arranged)) ∨
        ∃ e, below.bind a.summarize = .error e ∧ result = .error e) := by
  cases h with
  | aggregate hchild hlist hperm => exact ⟨_, hchild, .inl ⟨_, _, hlist, hperm, rfl⟩⟩
  | aggregate_failed hchild hfailed => exact ⟨_, hchild, .inr ⟨_, hfailed, rfl⟩⟩

/-- **If a plan can be opened once, it can be opened again**, and hands out the same up to order. -/
theorem exists_perm {p : Plan} {answers : List Answer} (h : p.Evaluates c d (.ok answers))
    (h' : p.Evaluates c d result') :
    ∃ answers', result' = .ok answers' ∧ answers'.Perm answers := by
  induction p generalizing answers result' with
  | rows schema list =>
    cases h
    cases h'
    exact ⟨_, rfl, .refl _⟩
  | scan t =>
    obtain ⟨file, list, hfile, hlist, heq⟩ := h.of_scan
    obtain ⟨file', list', hfile', hlist', rfl⟩ := h'.of_scan
    obtain rfl := Except.ok.inj (hfile'.symm.trans hfile)
    obtain rfl := Except.ok.inj (hlist'.symm.trans hlist)
    exact ⟨_, rfl, Except.ok.inj heq ▸ .refl _⟩
  | filter predicate child ih =>
    obtain ⟨_ | below, hbelow, heq⟩ := h.of_filter
    · cases heq
    · obtain ⟨_, hbelow', rfl⟩ := h'.of_filter
      obtain ⟨below', rfl, hperm⟩ := ih hbelow hbelow'
      cases heq
      exact ⟨_, rfl, Answers.filter_perm hperm⟩
  | join predicate left right ihl ihr =>
    obtain ⟨e, -, heq⟩ | ⟨lefts, _ | rights, hleft, hright, heq⟩ := h.of_join
    · cases heq
    · cases heq
    · obtain ⟨e, hleft', -⟩ | ⟨lefts', _, hleft', hright', rfl⟩ := h'.of_join
      · obtain ⟨_, hok, -⟩ := ihl hleft hleft'
        cases hok
      · obtain ⟨_, hok, hpermL⟩ := ihl hleft hleft'
        obtain ⟨rights', rfl, hpermR⟩ := ihr hright hright'
        cases hok
        cases heq
        exact ⟨_, rfl, Answers.join_perm hpermL hpermR⟩
  | aggregate a child ih =>
    obtain ⟨_ | below, hbelow, ⟨list, arranged, hlist, hperm, heq⟩ | ⟨e, -, heq⟩⟩ := h.of_aggregate
    · cases hlist
    · cases heq
    · obtain ⟨_, hbelow', hcases⟩ := h'.of_aggregate
      obtain ⟨below', rfl, hsame⟩ := ih hbelow hbelow'
      obtain ⟨list', hlist', hpermList⟩ := Aggregation.exists_summarize_of_perm hsame hlist
      obtain ⟨list'', arranged', hlist'', hperm', rfl⟩ | ⟨e, hfailed, -⟩ := hcases
      · obtain rfl := Except.ok.inj (hlist''.symm.trans hlist')
        cases heq
        exact ⟨_, rfl, (hperm'.trans (hpermList.trans hperm.symm)).map _⟩
      · cases hlist'.symm.trans hfailed
    · cases heq

/-- A plan that does not group its rows evaluates to one result only. -/
theorem eq_of_ungrouped {p : Plan} (hp : p.Ungrouped) (h : p.Evaluates c d result)
    (h' : p.Evaluates c d result') : result' = result := by
  induction p generalizing result result' with
  | rows schema list =>
    cases h
    cases h'
    rfl
  | scan t =>
    obtain ⟨file, list, hfile, hlist, rfl⟩ := h.of_scan
    obtain ⟨file', list', hfile', hlist', rfl⟩ := h'.of_scan
    obtain rfl := Except.ok.inj (hfile'.symm.trans hfile)
    obtain rfl := Except.ok.inj (hlist'.symm.trans hlist)
    rfl
  | filter predicate child ih =>
    obtain ⟨below, hbelow, rfl⟩ := h.of_filter
    obtain ⟨below', hbelow', rfl⟩ := h'.of_filter
    rw [ih hp hbelow hbelow']
  | join predicate left right ihl ihr =>
    obtain ⟨e, hleft, rfl⟩ | ⟨lefts, below, hleft, hright, rfl⟩ := h.of_join <;>
      obtain ⟨e', hleft', rfl⟩ | ⟨lefts', below', hleft', hright', rfl⟩ := h'.of_join <;>
      have hsame := ihl hp.1 hleft hleft'
    · rw [Except.error.inj hsame]
    · cases hsame
    · cases hsame
    · rw [Except.ok.inj hsame, ihr hp.2 hright hright']
  | aggregate a child ih =>
    obtain ⟨below, hbelow, hcases⟩ := h.of_aggregate
    obtain ⟨below', hbelow', hcases'⟩ := h'.of_aggregate
    rw [ih hp.2 hbelow hbelow'] at hcases'
    obtain ⟨list, arranged, hlist, hperm, rfl⟩ | ⟨e, hfailed, rfl⟩ := hcases <;>
      obtain ⟨list', arranged', hlist', hperm', rfl⟩ | ⟨e', hfailed', rfl⟩ := hcases'
    · obtain rfl := Except.ok.inj (hlist'.symm.trans hlist)
      rcases below with e | below
      · cases hlist
      · obtain ⟨row, rfl⟩ := List.length_eq_one_iff.1 (Aggregation.length_summarize hp.1 hlist)
        rw [List.perm_singleton.1 hperm, List.perm_singleton.1 hperm']
    · cases hlist.symm.trans hfailed'
    · cases hlist'.symm.trans hfailed
    · rw [Except.error.inj (hfailed'.symm.trans hfailed)]

end Evaluates

end Plan

end RowStore
