import Mathlib.Algebra.Ring.Int.Defs
import RowStore.Proofs.Query.Regularity
import RowStore.Proofs.Query.Reordering

/-!
# What an aggregator of numbers tells

An aggregator of numbers is offered one row after the other, any rows that have the fields it looks
at.  It takes in those in which these fields are set and one holds a number, and refuses the others
without a trace (`NumberAggregator.merge_of_covers`).  So what it tells at the end depends on what
the rows add that it took in (`Row.contributions`), and it is for each group the function of the
numbers of that group (`NumberAggregator.ofRows_tells`).

Functions are computed in 32 bits.  `AggregateOp.Defines` says by whole numbers what they should be:
sums are reduced once, at the end, and averages are reduced sums divided towards zero.  That comes
to the same as long as the numbers can be counted in 31 bits.

A group is taken for empty when its count in 32 bits is zero.  So a group of 2^32 rows, or of a
multiple of that, is told to have the figure zero.  For sums and for least and greatest numbers
these are the only groups that can be told wrong (`NumberAggregator.ofRows_wraps`).
-/

namespace RowStore

/-! ## Numbers of 32 bits -/

section

variable {numbers : List Int32}

lemma toInt_sum (numbers : List Int32) :
    numbers.sum.toInt = (numbers.map Int32.toInt).sum.bmod Int32.size := by
  induction numbers with
  | nil => rfl
  | cons n rest ih =>
    rw [List.sum_cons, List.map_cons, List.sum_cons, Int32.toInt_add, ih]
    exact Int.add_bmod_bmod

lemma ofNat_eq_zero_iff (n : ℕ) : Int32.ofNat n = 0 ↔ Int32.size ∣ n := by
  rw [← Int32.toInt_inj, Int32.toInt_ofNat', Int32.toInt_zero]
  constructor
  · intro h
    exact Int.ofNat_dvd.1 (Int.dvd_of_bmod_eq_zero h)
  · intro h
    exact Int.bmod_eq_zero_of_dvd (Int.ofNat_dvd.2 h)

/-- What a function of numbers has to be, by whole numbers. -/
def AggregateOp.Defines (op : AggregateOp) (numbers : List Int32) (v : Int32) : Prop :=
  match op with
  | .count => v.toInt = numbers.length
  | .sum => v.toInt = (numbers.map Int32.toInt).sum.bmod Int32.size
  | .avg => v.toInt = ((numbers.map Int32.toInt).sum.bmod Int32.size).tdiv numbers.length
  | .min => v ∈ numbers ∧ ∀ n ∈ numbers, v.toInt ≤ n.toInt
  | .max => v ∈ numbers ∧ ∀ n ∈ numbers, n.toInt ≤ v.toInt

namespace AggregateOp

lemma value_of_dvd (op : AggregateOp) (h : Int32.size ∣ numbers.length) : op.value numbers = 0 :=
  if_pos ((ofNat_eq_zero_iff _).2 h)

lemma defines_value {op : AggregateOp} (h : ¬ Int32.size ∣ numbers.length)
    (hop : op = count ∨ op = avg → numbers.length < Int32.size / 2) :
    op.Defines numbers (op.value numbers) := by
  have hcount : Int32.ofNat numbers.length ≠ 0 := fun h' => h ((ofNat_eq_zero_iff _).1 h')
  have hnil : numbers ≠ [] := by
    rintro rfl
    exact h (Nat.dvd_zero _)
  cases op with
  | min =>
    obtain ⟨least, hleast⟩ := Option.isSome_iff_exists.1 (List.isSome_min?_of_ne_nil hnil)
    obtain ⟨hmem, hle⟩ := List.min?_eq_some_iff.1 hleast
    have hvalue : min.value numbers = numbers.min?.getD 0 := if_neg hcount
    rw [hvalue, hleast]
    exact ⟨hmem, fun n hn => Int32.le_iff_toInt_le.1 (hle n hn)⟩
  | max =>
    obtain ⟨greatest, hgreatest⟩ := Option.isSome_iff_exists.1 (List.isSome_max?_of_ne_nil hnil)
    obtain ⟨hmem, hle⟩ := List.max?_eq_some_iff.1 hgreatest
    have hvalue : max.value numbers = numbers.max?.getD 0 := if_neg hcount
    rw [hvalue, hgreatest]
    exact ⟨hmem, fun n hn => Int32.le_iff_toInt_le.1 (hle n hn)⟩
  | sum =>
    have hvalue : sum.value numbers = numbers.sum := if_neg hcount
    rw [hvalue]
    exact toInt_sum numbers
  | avg =>
    have hvalue : avg.value numbers = numbers.sum / Int32.ofNat numbers.length := if_neg hcount
    have hlength : (Int32.ofNat numbers.length).toInt = numbers.length :=
      Int32.toInt_ofNat_of_lt (hop (.inr rfl))
    have hne : Int32.ofNat numbers.length ≠ -1 := by
      intro h'
      have hnegative : (numbers.length : ℤ) = -1 := by
        rw [← hlength, h']
        rfl
      omega
    rw [hvalue, Defines, Int32.toInt_div_of_ne_right _ _ hne, toInt_sum, hlength]
  | count =>
    have hvalue : count.value numbers = Int32.ofNat numbers.length := if_neg hcount
    rw [hvalue]
    exact Int32.toInt_ofNat_of_lt (hop (.inl rfl))

end AggregateOp

end

/-! ## Rows that are taken in -/

namespace Row

/-- The fields that an aggregation looks at exist. -/
structure Covers (r : Row) (group : Option ℕ) (field : ℕ) : Prop where
  field_lt : field < r.width
  group_lt : ∀ index, group = some index → index < r.width

/-- A row that cannot be taken in: there is no number in the field, or nothing in the field that
says which group it is of. -/
inductive Unfit (r : Row) (group : Option ℕ) (field : ℕ) : Prop
  | unset (h : r.fields[field]? = some none)
  | text {s : String} (h : r.fields[field]? = some (some (.text s)))
  | ungrouped {index : ℕ} (hgroup : group = some index) (h : r.fields[index]? = some none)

/-- The group that a row is of, and the number that it adds to it. -/
def contribution (group : Option ℕ) (field : ℕ) (r : Row) : Option (GroupKey × Int32) :=
  match r.fields[field]? with
  | some (some (.int n)) =>
    match group with
    | none => some (.whole, n)
    | some index =>
      match r.fields[index]? with
      | some (some v) => some (.value v, n)
      | _ => none
  | _ => none

/-- What rows add, without those that cannot be taken in. -/
def contributions (group : Option ℕ) (field : ℕ) (rows : List Row) : List (GroupKey × Int32) :=
  rows.filterMap (contribution group field)

variable {r : Row} {group : Option ℕ} {field : ℕ}

lemma get_of_getElem? {index : ℕ} {f : Option Value} (h : r.fields[index]? = some f) :
    r.get index = .ok f := by
  rw [get, h]

lemma length_values_of_contribution {e : GroupKey × Int32}
    (h : contribution group field r = some e) :
    e.1.values.length = if group.isSome then 1 else 0 := by
  rw [contribution] at h
  split at h
  · rcases group with _ | index
    · cases h
      rfl
    · dsimp only at h
      split at h <;> cases h
      rfl
  · cases h

lemma length_values_of_mem_contributions {rows : List Row} {e : GroupKey × Int32}
    (h : e ∈ contributions group field rows) :
    e.1.values.length = if group.isSome then 1 else 0 := by
  obtain ⟨r, -, hr⟩ := List.mem_filterMap.1 h
  exact length_values_of_contribution hr

lemma whole_of_mem_contributions {rows : List Row} (hnone : group = none) :
    ∀ e ∈ contributions group field rows, e.1 = .whole := by
  intro e he
  have hlength := length_values_of_mem_contributions he
  rw [hnone] at hlength
  rcases hkey : e.1 with _ | v
  · rfl
  · rw [hkey] at hlength
    cases hlength

end Row

namespace NumberAggregator

variable {r : Row} {group : Option ℕ} {field : ℕ} {op : AggregateOp} {schema : Schema}

/-- Takes in what a row adds. -/
def absorb (a : NumberAggregator) (e : GroupKey × Int32) : NumberAggregator :=
  { a with groups := a.groups.absorb Tally.add .empty e, merged := a.merged + 1 }

/-- Takes in a row if that is possible. -/
def offer (a : NumberAggregator) (r : Row) : NumberAggregator :=
  match a.merge r with
  | .ok taken => taken
  | .error _ => a

lemma merge_of_get (a : NumberAggregator) (f : Option Value) : r.get a.field = .ok f →
    a.merge r = match f with
      | none => .error (.error (r.unsetError a.field))
      | some (.int n) => (GroupKey.of r a.group).map fun key => a.absorb (key, n)
      | some v => .error (.error (.typeMismatch ColumnType.int.name v.kind)) := by
  intro h
  rw [merge, numberOf, h]
  rcases f with _ | n | s
  · rfl
  · show Except.bind (GroupKey.of r a.group) _ = _
    rcases GroupKey.of r a.group with e | key <;> rfl
  · rfl

/-- A row is taken in, or refused for what it lacks. -/
lemma merge_of_covers (a : NumberAggregator) (h : r.Covers a.group a.field) :
    (¬ r.Unfit a.group a.field ∧ ∃ e, r.contribution a.group a.field = some e ∧
      a.merge r = .ok (a.absorb e)) ∨
    (r.Unfit a.group a.field ∧ r.contribution a.group a.field = none ∧
      ∃ e, a.merge r = .error e ∧ e.IsMismatch) := by
  obtain ⟨f, hf⟩ : ∃ f, r.fields[a.field]? = some f := ⟨_, List.getElem?_eq_getElem h.field_lt⟩
  have hmerge := a.merge_of_get f (Row.get_of_getElem? hf)
  rcases f with _ | n | s
  · exact .inr ⟨.unset hf, by rw [Row.contribution, hf], _, hmerge,
      Aggregation.mismatch_of_unset r a.field⟩
  · rcases hgroup : a.group with _ | index <;> rw [hgroup] at hmerge
    · refine .inl ⟨?_, (.whole, n), by rw [Row.contribution, hf], hmerge⟩
      rintro (hunset | htext | ⟨hindex, -⟩)
      · cases hunset.symm.trans hf
      · cases htext.symm.trans hf
      · cases hindex
    · obtain ⟨kind, hv⟩ : ∃ kind, r.fields[index]? = some kind :=
        ⟨_, List.getElem?_eq_getElem (h.group_lt index hgroup)⟩
      rw [GroupKey.of, Row.get_of_getElem? hv] at hmerge
      rcases kind with _ | v
      · exact .inr ⟨.ungrouped rfl hv, by simp only [Row.contribution, hf, hv], _, hmerge,
          Aggregation.mismatch_of_unset r index⟩
      · refine .inl ⟨?_, (.value v, n), by simp only [Row.contribution, hf, hv], hmerge⟩
        rintro (hunset | htext | ⟨hindex, hunset⟩)
        · cases hunset.symm.trans hf
        · cases htext.symm.trans hf
        · cases hindex
          cases hunset.symm.trans hv
  · exact .inr ⟨.text hf, by rw [Row.contribution, hf], _, hmerge, _, _, rfl⟩

/-! ## Runs -/

/-- What became of an aggregator after rows were offered to it. -/
def ofRows (group : Option ℕ) (field : ℕ) (op : AggregateOp) (schema : Schema) (rows : List Row) :
    NumberAggregator :=
  rows.foldl offer (create group field op schema)

/-- Offering rows is taking in what they add. -/
lemma foldl_offer (a : NumberAggregator) {rows : List Row}
    (hrows : ∀ r ∈ rows, r.Covers a.group a.field) :
    rows.foldl offer a = (rows.filterMap (Row.contribution a.group a.field)).foldl absorb a := by
  induction rows generalizing a with
  | nil => rfl
  | cons r rest ih =>
    have hrest : ∀ r ∈ rest, r.Covers a.group a.field := fun r hr =>
      hrows r (List.mem_cons_of_mem _ hr)
    rw [List.foldl_cons, offer]
    rcases a.merge_of_covers (hrows r List.mem_cons_self) with
      ⟨-, e, he, hmerge⟩ | ⟨-, he, e, hmerge, -⟩
    · rw [hmerge, List.filterMap_cons_some he, List.foldl_cons]
      exact ih (a.absorb e) hrest
    · rw [hmerge, List.filterMap_cons_none he]
      exact ih a hrest

lemma foldl_absorb (a : NumberAggregator) (es : List (GroupKey × Int32)) :
    es.foldl absorb a = { a with
      groups := es.foldl (Assoc.absorb Tally.add .empty) a.groups
      merged := a.merged + es.length } :=
  Aggregator.numbers.inj <| (List.foldl_hom Aggregator.numbers fun _ _ => rfl).symm.trans
    (Aggregator.foldl_put_numbers a es)

/-- An aggregator gathers what the rows add. -/
lemma ofRows_eq {rows : List Row} (hrows : ∀ r ∈ rows, r.Covers group field) :
    ofRows group field op schema rows =
      ⟨group, field, op, schema, .gather Tally.add .empty (Row.contributions group field rows),
        (Row.contributions group field rows).length⟩ := by
  have hrun : ofRows group field op schema rows =
      (Row.contributions group field rows).foldl absorb (create group field op schema) :=
    foldl_offer _ hrows
  rw [hrun, foldl_absorb, create, Nat.zero_add]
  rfl

end NumberAggregator

/-! ## Results -/

/-- The row that tells the figure of a group: the value of the group first, if there is one. -/
def GroupKey.toldRow (schema : Schema) (e : GroupKey × Int32) : Row :=
  ⟨schema, (e.1.values ++ [Value.int e.2]).map some, none⟩

lemma GroupKey.toRow_eq_ok {key : GroupKey} {schema : Schema}
    (h : key.values.length + 1 = schema.width) (v : Int32) :
    key.toRow schema v = .ok (toldRow schema (key, v)) := by
  rw [toRow, Row.ofValues, if_pos]
  · rfl
  · rw [List.length_append]
    exact h

/-- The figures are those of the groups of what was added: there is one for each group, and without
grouping one in any case; it is zero for a group that nothing was added to, and for others it is
what the function is of the numbers, as long as these can be counted. -/
structure AggregateOp.Tells (op : AggregateOp) (group : Option ℕ)
    (entries figures : List (GroupKey × Int32)) : Prop where
  nodup : (figures.map Prod.fst).Nodup
  mem_iff : ∀ key, key ∈ figures.map Prod.fst ↔
    key ∈ entries.map Prod.fst ∨ group = none ∧ key = .whole
  whole : group = none → figures.map Prod.fst = [.whole]
  zero : ∀ e ∈ figures, Aggregation.numbers e.1 entries = [] → e.2 = 0
  defines : ∀ e ∈ figures, Aggregation.numbers e.1 entries ≠ [] →
    (Aggregation.numbers e.1 entries).length < Int32.size / 2 →
      op.Defines (Aggregation.numbers e.1 entries) e.2

namespace Aggregation

variable (g : Aggregation) {entries : List (GroupKey × Int32)}

/-- The figures that an aggregator of numbers tells, by groups. -/
def figures (entries : List (GroupKey × Int32)) : List (GroupKey × Int32) :=
  (g.keys entries).map fun key => (key, g.op.value (numbers key entries))

lemma map_fst_figures (entries : List (GroupKey × Int32)) :
    (g.figures entries).map Prod.fst = g.keys entries := by
  rw [figures, List.map_map]
  exact List.map_id _

lemma mem_keys_iff (hwhole : g.group = none → ∀ e ∈ entries, e.1 = .whole) (key : GroupKey) :
    key ∈ g.keys entries ↔ key ∈ entries.map Prod.fst ∨ g.group = none ∧ key = .whole := by
  rw [keys]
  split
  · next hgroup =>
    rw [List.mem_singleton]
    refine ⟨fun h => .inr ⟨hgroup, h⟩, ?_⟩
    rintro (hkey | ⟨-, h⟩)
    · obtain ⟨e, he, rfl⟩ := List.mem_map.1 hkey
      exact hwhole hgroup e he
    · exact h
  · next hgroup =>
    rw [List.mem_eraseDups]
    refine ⟨.inl, ?_⟩
    rintro (hkey | ⟨hnone, -⟩)
    · exact hkey
    · cases hgroup.symm.trans hnone

lemma eq_value_of_mem_figures {e : GroupKey × Int32} (he : e ∈ g.figures entries) :
    e.2 = g.op.value (numbers e.1 entries) := by
  obtain ⟨key, -, rfl⟩ := List.mem_map.1 he
  rfl

lemma tells_figures (hwhole : g.group = none → ∀ e ∈ entries, e.1 = .whole) :
    g.op.Tells g.group entries (g.figures entries) where
  nodup := by
    rw [map_fst_figures]
    exact g.nodup_keys entries
  mem_iff key := by
    rw [map_fst_figures]
    exact g.mem_keys_iff hwhole key
  whole hnone := by
    rw [map_fst_figures, keys, hnone]
  zero e he hnil := by
    rw [g.eq_value_of_mem_figures he, hnil]
    exact g.op.value_of_dvd (Nat.dvd_zero _)
  defines e he hnil hlength := by
    rw [g.eq_value_of_mem_figures he]
    have hdvd : ¬ Int32.size ∣ (numbers e.1 entries).length :=
      Nat.not_dvd_of_pos_of_lt (List.length_pos_of_ne_nil hnil)
        (Nat.lt_trans hlength (by decide))
    exact AggregateOp.defines_value hdvd fun _ => hlength

end Aggregation

namespace NumberAggregator

variable {group : Option ℕ} {field : ℕ} {op : AggregateOp} {schema : Schema} {rows : List Row}

lemma results_ofRows (hschema : schema.width = if group.isSome then 2 else 1)
    (hrows : ∀ r ∈ rows, r.Covers group field) :
    (ofRows group field op schema rows).results =
      .ok (List.map (GroupKey.toldRow schema)
        ((Aggregation.mk field .int group op schema).figures
          (Row.contributions group field rows))) := by
  set g : Aggregation := ⟨field, .int, group, op, schema⟩
  set entries := Row.contributions group field rows
  have hwhole : g.group = none → ∀ e ∈ entries, e.1 = .whole := Row.whole_of_mem_contributions
  have hgather := g.results_gather Tally.add .empty (fun t => t.result op)
    (Tally.result_foldl_add op) hwhole
  have hrow : ∀ key ∈ g.keys entries,
      key.toRow schema (op.value (Aggregation.numbers key entries)) =
        pure (GroupKey.toldRow schema (key, op.value (Aggregation.numbers key entries))) := by
    intro key hkey
    refine GroupKey.toRow_eq_ok ?_ _
    rcases (g.mem_keys_iff hwhole key).1 hkey with hkey | ⟨hnone, rfl⟩
    · obtain ⟨e, he, rfl⟩ := List.mem_map.1 hkey
      rw [Row.length_values_of_mem_contributions he, hschema]
      split <;> rfl
    · have hnone : group = none := hnone
      rw [hschema, hnone]
      rfl
  rw [ofRows_eq hrows]
  refine hgather.trans ?_
  rw [mapM_congr_of_mem hrow, List.mapM_pure, Aggregation.figures, List.map_map]
  rfl

/-- **An aggregator of numbers tells what its function is of the numbers of each group.**  A row is
refused exactly if there is no number where it should be, or nothing where its group should be; it
is then as if the row had not been offered.  The others are counted.  The results, which have a
column for the group if there is one and a column for the figure, are one row for each group that
was met, and without grouping one row in any case. -/
theorem ofRows_tells (group : Option ℕ) (field : ℕ) (op : AggregateOp) {schema : Schema}
    {rows : List Row} (hschema : schema.width = if group.isSome then 2 else 1)
    (hrows : ∀ r ∈ rows, r.Covers group field) :
    (∀ r : Row, r.Covers group field →
      ((∃ expected actual, (ofRows group field op schema rows).merge r =
          .error (.error (.typeMismatch expected actual))) ↔ r.Unfit group field) ∧
      (r.Unfit group field → r.contribution group field = none ∧
        ofRows group field op schema (rows ++ [r]) = ofRows group field op schema rows) ∧
      (¬ r.Unfit group field → (∃ e, r.contribution group field = some e) ∧
        (ofRows group field op schema rows).merge r =
          .ok (ofRows group field op schema (rows ++ [r])))) ∧
    (ofRows group field op schema rows).merged = (Row.contributions group field rows).length ∧
    ∃ figures : List (GroupKey × Int32),
      (ofRows group field op schema rows).results =
        .ok (figures.map (GroupKey.toldRow schema)) ∧
      op.Tells group (Row.contributions group field rows) figures := by
  refine ⟨fun r hr => ?_, ?_, _, results_ofRows hschema hrows,
    (Aggregation.mk field .int group op schema).tells_figures Row.whole_of_mem_contributions⟩
  · have hnext : ofRows group field op schema (rows ++ [r]) =
        (ofRows group field op schema rows).offer r := List.foldl_concat _ _ _ _
    have hmerge := (ofRows group field op schema rows).merge_of_covers (r := r)
    rw [hnext, offer]
    rw [ofRows_eq hrows] at hmerge ⊢
    rcases hmerge hr with ⟨hfit, e, he, hmerge⟩ | ⟨hunfit, he, e, hmerge, expected, actual, rfl⟩
    · rw [hmerge]
      refine ⟨⟨?_, fun h => absurd h hfit⟩, fun h => absurd h hfit, fun _ => ⟨⟨e, he⟩, rfl⟩⟩
      rintro ⟨expected, actual, h⟩
      cases h
    · rw [hmerge]
      exact ⟨⟨fun _ => hunfit, fun _ => ⟨expected, actual, rfl⟩⟩, fun _ => ⟨he, rfl⟩,
        fun h => absurd hunfit h⟩
  · rw [ofRows_eq hrows]

/-- Tickets have a kind and a price. -/
def tickets : Schema := ⟨[⟨.text 1, some "kind"⟩, ⟨.int, some "price"⟩], by decide⟩

/-- The kinds of these tickets are the number 1 and the text that reads the same; one has no kind,
and one no price but a text. -/
def ticketRows : List Row :=
  [⟨tickets, [some (.int 1), some (.int 7)], none⟩,
    ⟨tickets, [some (.text "1"), some (.int (-4))], none⟩,
    ⟨tickets, [none, some (.int 9)], none⟩,
    ⟨tickets, [some (.int 1), some (.text "x")], none⟩,
    ⟨tickets, [some (.int 1), some (.int 2)], none⟩]

theorem ofRows_tells_tickets :
    tickets.width = (if (some 0).isSome then 2 else 1) ∧
    (∀ r ∈ ticketRows, r.Covers (some 0) 1) ∧
    (ofRows (some 0) 1 .avg tickets ticketRows).merged = 3 ∧
    ∃ figures : List (GroupKey × Int32),
      (ofRows (some 0) 1 .avg tickets ticketRows).results =
        .ok (figures.map (GroupKey.toldRow tickets)) ∧
      AggregateOp.avg.Tells (some 0) [(.value (.int 1), 7), (.value (.text "1"), -4),
        (.value (.int 1), 2)] figures := by
  have hrows : ∀ r ∈ ticketRows, r.Covers (some 0) 1 := by
    intro r hr
    have hwidth : r.width = 2 := (by decide : ∀ r ∈ ticketRows, r.width = 2) r hr
    refine ⟨by rw [hwidth]; decide, fun index hindex => ?_⟩
    cases hindex
    rw [hwidth]
    decide
  have hschema : tickets.width = if (some 0).isSome then 2 else 1 := rfl
  obtain ⟨-, hmerged, hresults⟩ := ofRows_tells (some 0) 1 .avg hschema hrows
  exact ⟨hschema, hrows, hmerged, hresults⟩

/-! ## Counts that come round to zero -/

/-- **The sum, the least and the greatest number of a group are told right unless its rows are a
multiple of 2^32**; then it is told as if it had no rows. -/
theorem ofRows_wraps (group : Option ℕ) (field : ℕ) (op : AggregateOp) {schema : Schema}
    {rows : List Row} (hschema : schema.width = if group.isSome then 2 else 1)
    (hrows : ∀ r ∈ rows, r.Covers group field) :
    ∃ figures : List (GroupKey × Int32),
      (ofRows group field op schema rows).results =
        .ok (figures.map (GroupKey.toldRow schema)) ∧
      (figures.map Prod.fst).Nodup ∧
      ∀ key numbers, Aggregation.numbers key (Row.contributions group field rows) = numbers →
        numbers ≠ [] → ∃ v, (key, v) ∈ figures ∧
          (Int32.size ∣ numbers.length → v = 0) ∧
          (¬ Int32.size ∣ numbers.length → op = .sum ∨ op = .min ∨ op = .max →
            op.Defines numbers v) := by
  set g : Aggregation := ⟨field, .int, group, op, schema⟩
  have hwhole : g.group = none → ∀ e ∈ Row.contributions group field rows, e.1 = .whole :=
    Row.whole_of_mem_contributions
  refine ⟨_, results_ofRows hschema hrows, (g.tells_figures hwhole).nodup, ?_⟩
  rintro key numbers rfl hne
  have hkey : key ∈ (Row.contributions group field rows).map Prod.fst := by
    by_contra hkey
    exact hne (Assoc.valuesAt_eq_nil hkey)
  refine ⟨_, List.mem_map_of_mem ((g.mem_keys_iff hwhole key).2 (.inl hkey)),
    op.value_of_dvd, fun hdvd hop => AggregateOp.defines_value hdvd ?_⟩
  rintro (rfl | rfl) <;> simp at hop

/-- The least of the prices. -/
def leastPrice : Schema := ⟨[⟨.int, some "min(price)"⟩], by decide⟩

theorem ofRows_wraps_tickets : leastPrice.width = (if (none : Option ℕ).isSome then 2 else 1) ∧
    (∀ r ∈ ticketRows, r.Covers none 1) ∧
    ∃ figures : List (GroupKey × Int32),
      (ofRows none 1 .min leastPrice ticketRows).results =
        .ok (figures.map (GroupKey.toldRow leastPrice)) ∧
      ∃ v, (.whole, v) ∈ figures ∧ AggregateOp.min.Defines [7, -4, 9, 2] v := by
  have hschema : leastPrice.width = if (none : Option ℕ).isSome then 2 else 1 := rfl
  have hrows : ∀ r ∈ ticketRows, r.Covers none 1 := by
    intro r hr
    have hwidth : r.width = 2 := (by decide : ∀ r ∈ ticketRows, r.width = 2) r hr
    exact ⟨by rw [hwidth]; decide, fun index hindex => by cases hindex⟩
  have hnumbers : Aggregation.numbers .whole (Row.contributions none 1 ticketRows) =
      [7, -4, 9, 2] := rfl
  obtain ⟨figures, hresults, -, hfigures⟩ := ofRows_wraps none 1 .min hschema hrows
  obtain ⟨v, hmem, -, hdefines⟩ := hfigures .whole _ hnumbers (List.cons_ne_nil _ _)
  exact ⟨hschema, hrows, figures, hresults, v, hmem, hdefines (by decide) (.inr (.inl rfl))⟩

/-- A row with the number five. -/
def fiver : Row := ⟨⟨[⟨.int, some "price"⟩], by decide⟩, [some (.int 5)], none⟩

lemma contributions_replicate_fiver (n : ℕ) :
    Row.contributions none 0 (List.replicate n fiver) = List.replicate n (.whole, 5) :=
  List.filterMap_replicate_of_some rfl

lemma results_replicate_fiver {n : ℕ} (h : Int32.size ∣ n) :
    (ofRows none 0 .min leastPrice (List.replicate n fiver)).results =
      .ok [⟨leastPrice, [some (.int 0)], none⟩] := by
  have hrows : ∀ r ∈ List.replicate n fiver, r.Covers none 0 := by
    intro r hr
    rw [List.eq_of_mem_replicate hr]
    exact ⟨by decide, fun index hindex => by cases hindex⟩
  have hnumbers : Aggregation.numbers .whole (List.replicate n (GroupKey.whole, (5 : Int32))) =
      List.replicate n 5 := by
    rw [Aggregation.numbers, List.filter_replicate_of_pos (by decide), List.map_replicate]
  have hzero : AggregateOp.min.value (List.replicate n 5) = 0 :=
    AggregateOp.value_of_dvd _ (List.length_replicate ▸ h)
  rw [results_ofRows rfl hrows, contributions_replicate_fiver, Aggregation.figures]
  show Except.ok [GroupKey.toldRow leastPrice (.whole, AggregateOp.min.value
    (Aggregation.numbers .whole (List.replicate n (GroupKey.whole, (5 : Int32)))))] = _
  rw [hnumbers, hzero]
  rfl

/-- The least of 2^32 fives is told to be zero. -/
theorem results_fivers :
    Row.contributions none 0 (List.replicate Int32.size fiver) =
        List.replicate Int32.size (.whole, 5) ∧
      AggregateOp.min.Defines (List.replicate Int32.size 5) 5 ∧
      (ofRows none 0 .min leastPrice (List.replicate Int32.size fiver)).results =
        .ok [⟨leastPrice, [some (.int 0)], none⟩] := by
  refine ⟨contributions_replicate_fiver _, ⟨?_, fun n hn => ?_⟩,
    results_replicate_fiver (Nat.dvd_refl _)⟩
  · exact List.mem_replicate.2 ⟨by decide, rfl⟩
  · obtain rfl := List.eq_of_mem_replicate hn
    exact Int.le_refl _

end NumberAggregator

end RowStore
