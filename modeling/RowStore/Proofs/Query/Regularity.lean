import RowStore.Proofs.Page.Decoding
import RowStore.Proofs.Query.Grouping

/-!
# Plans whose fields are in range

A plan that only asks for fields that its rows have, and whose rows in memory fill their schema, can
break no contract: every row that it evaluates to fills the schema of the plan, and the only way in
which it fails is a value of the wrong type (`Plan.Evaluates.regular`).  The constructors of
aggregations only make ones that are in range (`Aggregation.inRange_of_ofSchema`).
-/

namespace RowStore

/-- The failure is about a value of the wrong type. -/
def Failure.IsMismatch (e : Failure) : Prop :=
  ∃ expected actual, e = .error (.typeMismatch expected actual)

/-- The rows have so many fields, and the failures are about values of the wrong type. -/
structure Answers.Regular (width : ℕ) (answers : List Answer) : Prop where
  width_eq : ∀ {row}, .ok row ∈ answers → row.width = width
  mismatch : ∀ {e}, .error e ∈ answers → e.IsMismatch

/-! ## Tests -/

lemma Row.exists_get {r : Row} {index : ℕ} (h : index < r.width) :
    ∃ field, r.get index = .ok field := by
  have hfield : r.fields[index]? = some (r.fields.get ⟨index, h⟩) := List.getElem?_eq_getElem h
  exact ⟨r.fields.get ⟨index, h⟩, by rw [get, hfield]⟩

lemma mismatch_of_testFields {op : Comparison} {a b : Option Value} {e : Error}
    (h : testFields op a b = .error e) : (Failure.error e).IsMismatch := by
  rcases a with _ | a
  · cases h
  · rcases b with _ | b
    · cases h
    · rcases a with m | t <;> rcases b with n | u <;> cases h <;> exact ⟨_, _, rfl⟩

lemma Predicate.mismatch_of_test {p : Predicate} {r : Row} (hfield : p.field < r.width)
    {e : Failure} (h : p.test r = .error e) : e.IsMismatch := by
  obtain ⟨field, hget⟩ := Row.exists_get hfield
  have htest : p.test r = liftError (testFields p.op field (some p.operand)) := by
    rw [test, hget]
    rfl
  rw [htest] at h
  rcases hfields : testFields p.op field (some p.operand) with e' | b <;> rw [hfields] at h
  · cases h
    exact mismatch_of_testFields hfields
  · cases h

lemma JoinPredicate.mismatch_of_test {p : JoinPredicate} {l r : Row} (hleft : p.left < l.width)
    (hright : p.right < r.width) {e : Failure} (h : p.test l r = .error e) : e.IsMismatch := by
  obtain ⟨a, ha⟩ := Row.exists_get hleft
  obtain ⟨b, hb⟩ := Row.exists_get hright
  have htest : p.test l r = liftError (testFields p.op a b) := by
    rw [test, ha, hb]
    rfl
  rw [htest] at h
  rcases hfields : testFields p.op a b with e' | b <;> rw [hfields] at h
  · cases h
    exact mismatch_of_testFields hfields
  · cases h

/-! ## Filters and joins -/

namespace Answers

variable {width : ℕ} {answers left right : List Answer}

lemma regular_ofRows {rows : List Row} (h : ∀ row ∈ rows, row.width = width) :
    Regular width (ofRows rows) where
  width_eq {row} hrow := by
    obtain ⟨row', hrow', heq⟩ := List.mem_map.1 hrow
    cases heq
    exact h row hrow'
  mismatch {e} he := by
    obtain ⟨row', -, heq⟩ := List.mem_map.1 he
    cases heq

lemma ok_mem_filter {test : Row → Except Failure Bool} {row : Row}
    (h : .ok row ∈ filter test answers) : .ok row ∈ answers := by
  obtain ⟨answer, hmem, hkeep⟩ := List.mem_flatMap.1 h
  rcases answer with e | row'
  · simp [keep] at hkeep
  · rw [keep] at hkeep
    split at hkeep
    · simp at hkeep
    · simp only [List.mem_singleton, Except.ok.injEq] at hkeep
      exact hkeep ▸ hmem
    · cases hkeep

lemma error_mem_filter {test : Row → Except Failure Bool} {e : Failure}
    (h : .error e ∈ filter test answers) :
    .error e ∈ answers ∨ ∃ row, .ok row ∈ answers ∧ test row = .error e := by
  obtain ⟨answer, hmem, hkeep⟩ := List.mem_flatMap.1 h
  rcases answer with e' | row
  · simp only [keep, List.mem_singleton, Except.error.injEq] at hkeep
    exact .inl (hkeep ▸ hmem)
  · rw [keep] at hkeep
    split at hkeep
    · next htest =>
      simp only [List.mem_singleton, Except.error.injEq] at hkeep
      exact .inr ⟨row, hmem, hkeep ▸ htest⟩
    · simp at hkeep
    · cases hkeep

lemma Regular.filter (h : Regular width answers) {test : Row → Except Failure Bool}
    (htest : ∀ row e, row.width = width → test row = .error e → e.IsMismatch) :
    Regular width (filter test answers) where
  width_eq hrow := h.width_eq (ok_mem_filter hrow)
  mismatch {e} he := by
    obtain hmem | ⟨row, hmem, hfail⟩ := error_mem_filter he
    · exact h.mismatch hmem
    · exact htest row e (h.width_eq hmem) hfail

lemma Regular.pair {schema : Schema} {test : Row → Row → Except Failure Bool} {l : Row}
    {widthR : ℕ} (hr : Regular widthR right) (hschema : l.width + widthR = schema.width)
    (htest : ∀ r e, r.width = widthR → test l r = .error e → e.IsMismatch) :
    Regular schema.width (pair schema test right l) := by
  have hfilter : Regular widthR (Answers.filter (test l) right) := hr.filter htest
  have happend : ∀ r : Row, r.width = widthR →
      Row.append schema l r = .ok ⟨schema, l.fields ++ r.fields, none⟩ := by
    intro r hwidth
    rw [Row.append, if_pos (by rw [hwidth, hschema])]
  constructor
  · intro row hrow
    obtain ⟨answer, hmem, hanswer⟩ := List.mem_map.1 hrow
    rcases answer with e | r
    · cases hanswer
    · have hwidth := hfilter.width_eq hmem
      rw [Except.bind, happend r hwidth] at hanswer
      cases hanswer
      rw [Row.width, List.length_append, ← hschema, ← hwidth]
      rfl
  · intro e he
    obtain ⟨answer, hmem, hanswer⟩ := List.mem_map.1 he
    rcases answer with e' | r
    · cases hanswer
      exact hfilter.mismatch hmem
    · rw [Except.bind, happend r (hfilter.width_eq hmem)] at hanswer
      cases hanswer

lemma Regular.join {schema : Schema} {test : Row → Row → Except Failure Bool} {widthL widthR : ℕ}
    (hl : Regular widthL left) (hr : Regular widthR right)
    (hschema : widthL + widthR = schema.width)
    (htest : ∀ l r e, l.width = widthL → r.width = widthR → test l r = .error e → e.IsMismatch) :
    Regular schema.width (join schema test left right) := by
  have hpair : ∀ l, .ok l ∈ left → Regular schema.width (Answers.pair schema test right l) := by
    intro l hmem
    have hwidth := hl.width_eq hmem
    exact hr.pair (hwidth ▸ hschema) fun r e => htest l r e hwidth
  constructor
  · intro row hrow
    obtain ⟨answer, hmem, hanswer⟩ := List.mem_flatMap.1 hrow
    rcases answer with e | l
    · simp at hanswer
    · exact (hpair l hmem).width_eq hanswer
  · intro e he
    obtain ⟨answer, hmem, hanswer⟩ := List.mem_flatMap.1 he
    rcases answer with e' | l
    · simp only [List.mem_singleton, Except.error.injEq] at hanswer
      exact hl.mismatch (hanswer ▸ hmem)
    · exact (hpair l hmem).mismatch hanswer

end Answers

/-! ## Aggregations -/

namespace Aggregation

/-- The fields of an aggregation are columns of its input, the function is one for their types, and
the results have as many columns as they should. -/
structure InRange (a : Aggregation) (input : Schema) : Prop where
  field_lt : a.field < input.width
  group_lt : ∀ index, a.group = some index → index < input.width
  supported : ∃ initial, a.aggregator = .ok initial
  width_schema : a.schema.width = if a.group.isSome then 2 else 1

lemma lt_of_column {input : Schema} {index : ℕ} {c : Column} (h : input.column index = .ok c) :
    index < input.width := by
  rw [Schema.column] at h
  split at h
  · next hc => exact (List.getElem?_eq_some_iff.1 hc).1
  · cases h

/-- When an aggregation has been made there is a column for its field and an aggregator, and a
column for its groups if there are any. -/
lemma ofSchema_eq_ok {input : Schema} {field : ℕ} {group : Option ℕ} {op : AggregateOp}
    {a : Aggregation} (h : ofSchema input field group op = .ok a) :
    ∃ column initial, input.column field = .ok column ∧ a.aggregator = .ok initial ∧
      ((group = none ∧
          a = ⟨field, column.type, none, op, ⟨[resultColumn op column.name], by simp⟩⟩) ∨
        ∃ index key, group = some index ∧ input.column index = .ok key ∧
          a = ⟨field, column.type, some index, op,
            ⟨[key, resultColumn op column.name], by simp⟩⟩) := by
  rcases hcolumn : input.column field with e | column
  · simp [ofSchema, hcolumn, bind, Except.bind] at h
  · rcases group with _ | index
    · simp only [ofSchema, hcolumn, bind, Except.bind, pure, Except.pure] at h
      split at h
      · cases h
      · next initial hinitial =>
        cases h
        exact ⟨column, initial, rfl, hinitial, .inl ⟨rfl, rfl⟩⟩
    · rcases hkey : input.column index with e | key
      · simp [ofSchema, hcolumn, hkey, bind, Except.bind] at h
      · simp only [ofSchema, hcolumn, hkey, bind, Except.bind, pure, Except.pure] at h
        split at h
        · cases h
        · next initial hinitial =>
          cases h
          exact ⟨column, initial, rfl, hinitial, .inr ⟨index, key, rfl, hkey, rfl⟩⟩

lemma inRange_of_ofSchema {input : Schema} {field : ℕ} {group : Option ℕ} {op : AggregateOp}
    {a : Aggregation} (h : ofSchema input field group op = .ok a) : a.InRange input := by
  obtain ⟨column, initial, hcolumn, hinitial, ⟨rfl, rfl⟩ | ⟨index, key, rfl, hkey, rfl⟩⟩ :=
    ofSchema_eq_ok h
  · exact ⟨lt_of_column hcolumn, fun _ hindex => (by cases hindex), ⟨initial, hinitial⟩, rfl⟩
  · refine ⟨lt_of_column hcolumn, fun _ hindex => ?_, ⟨initial, hinitial⟩, rfl⟩
    cases hindex
    exact lt_of_column hkey

variable {a : Aggregation} {input : Schema} {r : Row}

lemma mismatch_of_unset (r : Row) (index : ℕ) :
    (Failure.error (r.unsetError index)).IsMismatch := by
  rw [Row.unsetError]
  split <;> exact ⟨_, _, rfl⟩

lemma InRange.mismatch_of_key (h : a.InRange input) (hwidth : r.width = input.width) {e : Failure}
    (he : GroupKey.of r a.group = .error e) : e.IsMismatch := by
  rcases hgroup : a.group with _ | index <;> rw [hgroup] at he
  · cases he
  · obtain ⟨field, hget⟩ := Row.exists_get (hwidth ▸ h.group_lt index hgroup)
    rw [GroupKey.of, hget] at he
    rcases field with _ | value <;> cases he
    exact mismatch_of_unset r index

lemma InRange.length_key (h : a.InRange input) {key : GroupKey}
    (hkey : GroupKey.of r a.group = .ok key) : key.values.length + 1 = a.schema.width := by
  rw [h.width_schema]
  rcases hgroup : a.group with _ | index <;> rw [hgroup] at hkey
  · cases hkey
    rfl
  · rw [GroupKey.of] at hkey
    rcases hget : r.get index with e | _ | value <;> rw [hget] at hkey <;> cases hkey
    rfl

lemma InRange.mismatch_of_entry (h : a.InRange input) (hwidth : r.width = input.width) {e : Failure}
    (he : a.entry r = .error e) : e.IsMismatch := by
  obtain ⟨field, hget⟩ := Row.exists_get (hwidth ▸ h.field_lt)
  rcases hkey : GroupKey.of r a.group with e' | key
  · have hmismatch := h.mismatch_of_key hwidth hkey
    rw [entry, hget, hkey] at he
    split at he
    · cases he
      exact hmismatch
    · rcases field with _ | n | text <;> cases he
      · exact mismatch_of_unset r a.field
      · exact hmismatch
      · exact ⟨_, _, rfl⟩
  · rw [entry, hget, hkey] at he
    split at he
    · cases he
    · rcases field with _ | n | text <;> cases he
      · exact mismatch_of_unset r a.field
      · exact ⟨_, _, rfl⟩

/-- Every group has a row, which fills the schema of the results. -/
lemma InRange.exists_toRow (h : a.InRange input) {answers : List Answer}
    {entries : List (GroupKey × Int32)}
    (hentries : answers.mapM (fun answer : Answer => answer.bind a.entry) = .ok entries)
    {key : GroupKey} (hkey : key ∈ a.keys entries) (result : Int32) :
    ∃ row, key.toRow a.schema result = .ok row ∧ row.width = a.schema.width := by
  have hlength : key.values.length + 1 = a.schema.width := by
    rcases hgroup : a.group with _ | index <;> rw [keys, hgroup] at hkey
    · rw [List.mem_singleton.1 hkey, h.width_schema, hgroup]
      rfl
    · obtain ⟨x, hx, rfl⟩ := List.mem_map.1 (List.mem_eraseDups.1 hkey)
      obtain ⟨answer, -, hentry⟩ := mem_of_mapM_eq_ok hentries hx
      rcases answer with e | r
      · cases hentry
      · exact h.length_key (a.key_of_entry hentry)
  have hvalues : (key.values ++ [Value.int result]).length = a.schema.width := by
    rw [List.length_append]
    exact hlength
  refine ⟨⟨a.schema, (key.values ++ [Value.int result]).map some, none⟩, ?_, ?_⟩
  · rw [GroupKey.toRow, Row.ofValues, if_pos hvalues]
  · rw [Row.width, List.length_map, hvalues]

lemma InRange.regular_summarize (h : a.InRange input) {answers : List Answer}
    (hanswers : Answers.Regular input.width answers) :
    (∀ e, a.summarize answers = .error e → e.IsMismatch) ∧
      ∀ list, a.summarize answers = .ok list → ∀ row ∈ list, row.width = a.schema.width := by
  obtain ⟨initial, hinitial⟩ := h.supported
  rcases hentries : answers.mapM fun answer : Answer => answer.bind a.entry with e | entries
  · have hsummary : a.summarize answers = .error e := by
      rw [summarize, hinitial, hentries]
      rfl
    rw [hsummary]
    refine ⟨fun e' he' => ?_, fun list hlist => by cases hlist⟩
    cases he'
    obtain ⟨answer, hmem, hfail⟩ := exists_of_mapM_eq_error hentries
    rcases answer with e' | row
    · cases hfail
      exact hanswers.mismatch hmem
    · exact h.mismatch_of_entry (hanswers.width_eq hmem) hfail
  · have hsummary : a.summarize answers = (a.keys entries).mapM fun key =>
        key.toRow a.schema (a.op.value (numbers key entries)) := by
      rw [summarize, hinitial, hentries]
      rfl
    rw [hsummary]
    constructor
    · intro e he
      obtain ⟨key, hkey, hfail⟩ := exists_of_mapM_eq_error he
      obtain ⟨row, hrow, -⟩ := h.exists_toRow hentries hkey (a.op.value (numbers key entries))
      rw [hrow] at hfail
      cases hfail
    · intro list hlist row hrow
      obtain ⟨key, hkey, heq⟩ := mem_of_mapM_eq_ok hlist hrow
      obtain ⟨row', hrow', hwidth⟩ :=
        h.exists_toRow hentries hkey (a.op.value (numbers key entries))
      rw [heq] at hrow'
      cases hrow'
      exact hwidth

end Aggregation

/-! ## Plans -/

namespace Plan

/-- All fields that a plan asks for are fields of its rows. -/
def InRange : Plan → Prop
  | rows schema list => ∀ row ∈ list, row.width = schema.width
  | scan _ => True
  | filter predicate child => predicate.field < child.schema.width ∧ child.InRange
  | join predicate left right => predicate.left < left.schema.width ∧
      predicate.right < right.schema.width ∧ left.InRange ∧ right.InRange
  | aggregate a child => a.InRange child.schema ∧ child.InRange

/-- The tables of a plan are there, have the shapes that the plan was made for, and can be read. -/
def Available (c : Catalog) (d : Disk) : Plan → Prop
  | rows _ _ => True
  | scan t => ∃ file list, c.heapFile t.table = .ok file ∧ file.schema.shape = t.schema.shape ∧
      file.contents d = .ok list
  | filter _ child => child.Available c d
  | join _ left right => left.Available c d ∧ right.Available c d
  | aggregate _ child => child.Available c d

/-- What a plan in range evaluates to fills its schema, or fails by a value of the wrong type. -/
theorem Evaluates.regular {c : Catalog} {d : Disk} {p : Plan}
    {result : Except Failure (List Answer)} (h : p.Evaluates c d result)
    (havailable : p.Available c d) (hrange : p.InRange) :
    (∀ e, result = .error e → e.IsMismatch) ∧
      ∀ answers, result = .ok answers → Answers.Regular p.schema.width answers := by
  induction h with
  | rows =>
    refine ⟨fun e he => (by cases he), fun answers hanswers => ?_⟩
    cases hanswers
    exact Answers.regular_ofRows hrange
  | scan hfile hlist =>
    refine ⟨fun e he => (by cases he), fun answers hanswers => ?_⟩
    cases hanswers
    obtain ⟨file, list, hfile', hshape, -⟩ := havailable
    rw [hfile] at hfile'
    cases hfile'
    refine Answers.regular_ofRows fun row hrow => ?_
    have hwidth := congrArg List.length hshape
    rw [Schema.length_shape, Schema.length_shape] at hwidth
    exact (HeapFile.contents_fits hlist row hrow).2.trans hwidth
  | @filter predicate child below hchild ih =>
    obtain ⟨hfield, hrange⟩ := hrange
    obtain ⟨hfail, hregular⟩ := ih havailable hrange
    rcases below with e | answers
    · refine ⟨fun e' he => ?_, fun _ h => (by cases h)⟩
      cases he
      exact hfail e rfl
    · refine ⟨fun e he => (by cases he), fun answers' h => ?_⟩
      cases h
      refine (hregular answers rfl).filter fun row e hwidth htest => ?_
      exact Predicate.mismatch_of_test (hwidth ▸ hfield) htest
  | join_left hleft ih =>
    refine ⟨fun e he => ?_, fun _ h => (by cases h)⟩
    exact (ih havailable.1 hrange.2.2.1).1 e he
  | @join predicate left right answers below hleft hright ihl ihr =>
    obtain ⟨hlt, hlt', hrangeL, hrangeR⟩ := hrange
    have hregularL := (ihl havailable.1 hrangeL).2 answers rfl
    obtain ⟨hfail, hregularR⟩ := ihr havailable.2 hrangeR
    rcases below with e | answers'
    · refine ⟨fun e' he => ?_, fun _ h => (by cases h)⟩
      cases he
      exact hfail e rfl
    · refine ⟨fun e he => (by cases he), fun _ h => ?_⟩
      cases h
      refine hregularL.join (hregularR answers' rfl) ?_ fun l r e hl hr htest => ?_
      · exact List.length_append.symm
      · exact JoinPredicate.mismatch_of_test (hl ▸ hlt) (hr ▸ hlt') htest
  | @aggregate a child below list hchild hlist arranged hperm ih =>
    obtain ⟨hrangeA, hrange⟩ := hrange
    obtain ⟨-, hregular⟩ := ih havailable hrange
    refine ⟨fun e he => (by cases he), fun answers h => ?_⟩
    cases h
    rcases below with e | answers
    · cases hlist
    · refine Answers.regular_ofRows fun row hrow => ?_
      have hrows := (hrangeA.regular_summarize (hregular answers rfl)).2 list hlist
      exact hrows row (hperm.mem_iff.1 hrow)
  | @aggregate_failed a child below e hchild hfailed ih =>
    obtain ⟨hrangeA, hrange⟩ := hrange
    obtain ⟨hfail, hregular⟩ := ih havailable hrange
    refine ⟨fun e' he => ?_, fun _ h => (by cases h)⟩
    cases he
    rcases below with e' | answers
    · cases hfailed
      exact hfail e rfl
    · exact (hrangeA.regular_summarize (hregular answers rfl)).1 e hfailed

end Plan

end RowStore
