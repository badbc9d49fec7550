import Mathlib.Data.Multiset.Bind
import RowStore.Proofs.Text.Order
import RowStore.Query.Predicate

/-!
# One order behind all comparisons

Values have an order as such (`Value.order`), and a query compares them by one of six comparisons.
For values of one kind, five of these say where the two stand in the order (`Value.Ordered`), and
the sixth says of texts that one is found in the other.  For values of different kinds all six fail.

A join predicate may be turned round: the sides change places, and the comparison becomes its
converse.  The same pairs of rows are then selected, the other way round
(`JoinPredicate.Mirrors`).  This needs a comparison that comes from the order, because the search in
texts has no converse.
-/

namespace RowStore

/-! ## The order of values -/

namespace Value

variable {a b c : Value}

lemma order_eq_eq_iff : a.order b = .eq ↔ a = b := by
  rcases a with m | s <;> rcases b with n | t
  · rw [int.injEq]
    exact Std.compare_eq_iff_eq
  · simp [order]
  · simp [order]
  · rw [text.injEq]
    exact Utf8.order_eq_eq_iff

lemma order_swap (a b : Value) : (a.order b).swap = b.order a := by
  rcases a with m | s <;> rcases b with n | t
  · exact Std.OrientedOrd.eq_swap.symm
  · rfl
  · rfl
  · exact Utf8.order_swap s t

lemma order_trans (hab : a.order b = .lt) (hbc : b.order c = .lt) : a.order c = .lt := by
  rcases a with m | s <;> rcases b with n | t <;> rcases c with k | u
  · exact Std.compare_eq_lt.2 (Int32.lt_trans (Std.compare_eq_lt.1 hab) (Std.compare_eq_lt.1 hbc))
  · rfl
  · cases hbc
  · rfl
  · cases hab
  · cases hab
  · cases hbc
  · exact Utf8.order_eq_lt_iff.2
      (lt_trans (Utf8.order_eq_lt_iff.1 hab) (Utf8.order_eq_lt_iff.1 hbc))

/-! ## Comparisons by the order -/

/-- Two values compare as they are ordered. -/
structure Ordered (a b : Value) : Prop where
  eq : a.test .eq b = .ok (a.order b).isEq
  lt : a.test .lt b = .ok (a.order b).isLT
  gt : a.test .gt b = .ok (a.order b).isGT
  le : a.test .le b = .ok (a.order b).isLE
  ge : a.test .ge b = .ok (a.order b).isGE

lemma ordered_int (m n : Int32) : (int m).Ordered (int n) := by
  rcases h : compare m n with _ | _ | _
  · have hlt : m < n := Std.compare_eq_lt.1 h
    constructor <;> simp [test, Comparison.holdsInt, order, h, hlt, Int32.not_le,
      Int32.ne_of_lt, Int32.le_of_lt, Int32.lt_asymm]
  · obtain rfl : m = n := Std.compare_eq_iff_eq.1 h
    constructor <;> simp [test, Comparison.holdsInt, order]
  · have hgt : n < m := Std.compare_eq_gt.1 h
    constructor <;> simp [test, Comparison.holdsInt, order, h, hgt, Int32.not_le,
      (Int32.ne_of_lt hgt).symm, Int32.le_of_lt, Int32.lt_asymm]

lemma ordered_text (s t : String) : (text s).Ordered (text t) := by
  rcases h : Utf8.order s t with _ | _ | _
  · have hlt : s < t := Utf8.order_eq_lt_iff.1 h
    constructor <;> simp [test, Comparison.holdsText, order, h, hlt, hlt.ne, hlt.le, hlt.not_gt]
  · obtain rfl : s = t := Utf8.order_eq_eq_iff.1 h
    constructor <;> simp [test, Comparison.holdsText, order, h]
  · have hgt : t < s := Utf8.order_eq_lt_iff.1 (by rw [← Utf8.order_swap, h]; rfl)
    constructor <;> simp [test, Comparison.holdsText, order, h, hgt, hgt.ne', hgt.le, hgt.not_gt]

/-- Values of one kind compare as they are ordered. -/
lemma ordered (h : a.kind = b.kind) : a.Ordered b := by
  rcases a with m | s <;> rcases b with n | t
  · exact ordered_int m n
  · simp [kind] at h
  · simp [kind] at h
  · exact ordered_text s t

/-- Values of one kind can be compared in every way. -/
lemma test_eq_ok (h : a.kind = b.kind) (op : Comparison) : ∃ answer, a.test op b = .ok answer := by
  rcases a with m | s <;> rcases b with n | t
  · exact ⟨_, rfl⟩
  · simp [kind] at h
  · simp [kind] at h
  · exact ⟨_, rfl⟩

/-- Values of different kinds do not compare. -/
lemma test_eq_error (h : a.kind ≠ b.kind) (op : Comparison) :
    a.test op b = .error (.typeMismatch a.kind b.kind) := by
  rcases a with m | s <;> rcases b with n | t
  · exact absurd rfl h
  · rfl
  · rfl
  · exact absurd rfl h

/-- A comparison that holds between two values. -/
def Holds (a : Value) (op : Comparison) (b : Value) : Prop := a.test op b = .ok true

namespace Ordered

lemma eq_iff (h : a.Ordered b) : a.Holds .eq b ↔ a = b := by
  rw [Holds, h.eq, ← order_eq_eq_iff]
  rcases a.order b <;> simp

lemma lt_iff (h : a.Ordered b) : a.Holds .lt b ↔ a.order b = .lt := by
  rw [Holds, h.lt]
  rcases a.order b <;> simp

lemma gt_iff (h : a.Ordered b) : a.Holds .gt b ↔ a.order b = .gt := by
  rw [Holds, h.gt]
  rcases a.order b <;> simp

lemma le_iff (h : a.Ordered b) : a.Holds .le b ↔ a.Holds .lt b ∨ a = b := by
  rw [h.lt_iff, ← order_eq_eq_iff, Holds, h.le]
  rcases a.order b <;> simp

lemma ge_iff (h : a.Ordered b) : a.Holds .ge b ↔ a.Holds .gt b ∨ a = b := by
  rw [h.gt_iff, ← order_eq_eq_iff, Holds, h.ge]
  rcases a.order b <;> simp

end Ordered

/-! ## The search in texts -/

lemma holds_like_int {m n : Int32} : (int m).Holds .like (int n) ↔ m = n := by
  simp [Holds, test, Comparison.holdsInt]

lemma holds_like_text {s t : String} :
    (text s).Holds .like (text t) ↔ t.toList <:+: s.toList := by
  rw [← Utf8.contains_eq_true_iff, Holds, test, Except.ok.injEq, Comparison.holdsText]

lemma kind_eq_of_holds {op : Comparison} (h : a.Holds op b) : a.kind = b.kind := by
  by_contra hkind
  rw [Holds, test_eq_error hkind] at h
  cases h

lemma like_refl (a : Value) : a.Holds .like a := by
  rcases a with m | s
  · exact holds_like_int.2 rfl
  · exact holds_like_text.2 (List.infix_refl _)

lemma like_trans (hab : a.Holds .like b) (hbc : b.Holds .like c) : a.Holds .like c := by
  have hkind₁ := kind_eq_of_holds hab
  have hkind₂ := kind_eq_of_holds hbc
  rcases a with m | s <;> rcases b with n | t <;> rcases c with k | u <;>
    simp only [kind, String.reduceEq] at hkind₁ hkind₂
  · exact holds_like_int.2 ((holds_like_int.1 hab).trans (holds_like_int.1 hbc))
  · exact holds_like_text.2 ((holds_like_text.1 hbc).trans (holds_like_text.1 hab))

lemma like_antisymm (hab : a.Holds .like b) (hba : b.Holds .like a) : a = b := by
  have hkind := kind_eq_of_holds hab
  rcases a with m | s <;> rcases b with n | t <;> simp only [kind, String.reduceEq] at hkind
  · rw [holds_like_int.1 hab]
  · have hba := holds_like_text.1 hba
    have hsame := hba.eq_of_length_le (holds_like_text.1 hab).length_le
    rw [String.toList_injective hsame]

/-! ## All comparisons together -/

/-- The comparisons of three values come from one order. -/
structure OneOrder (a b c : Value) : Prop where
  agrees : a.Ordered b
  trichotomy : a.Holds .lt b ∧ ¬ a.Holds .eq b ∧ ¬ a.Holds .gt b ∨
    ¬ a.Holds .lt b ∧ a.Holds .eq b ∧ ¬ a.Holds .gt b ∨
    ¬ a.Holds .lt b ∧ ¬ a.Holds .eq b ∧ a.Holds .gt b
  eq_iff : a.Holds .eq b ↔ a = b
  le_iff : a.Holds .le b ↔ a.Holds .lt b ∨ a.Holds .eq b
  ge_iff : a.Holds .ge b ↔ a.Holds .gt b ∨ a.Holds .eq b
  lt_iff_gt : a.Holds .lt b ↔ b.Holds .gt a
  lt_trans : a.Holds .lt b → b.Holds .lt c → a.Holds .lt c
  like_refl : a.Holds .like a
  like_trans : a.Holds .like b → b.Holds .like c → a.Holds .like c
  like_antisymm : a.Holds .like b → b.Holds .like a → a = b

lemma oneOrder (hab : a.kind = b.kind) (hbc : b.kind = c.kind) : OneOrder a b c where
  agrees := ordered hab
  trichotomy := by
    rw [(ordered hab).lt_iff, (ordered hab).eq_iff, (ordered hab).gt_iff, ← order_eq_eq_iff]
    rcases a.order b <;> simp
  eq_iff := (ordered hab).eq_iff
  le_iff := by rw [(ordered hab).eq_iff, (ordered hab).le_iff]
  ge_iff := by rw [(ordered hab).eq_iff, (ordered hab).ge_iff]
  lt_iff_gt := by
    rw [(ordered hab).lt_iff, (ordered hab.symm).gt_iff, ← order_swap a b]
    rcases a.order b <;> simp
  lt_trans := by
    rw [(ordered hab).lt_iff, (ordered hbc).lt_iff, (ordered (hab.trans hbc)).lt_iff]
    exact order_trans
  like_refl := like_refl a
  like_trans := like_trans
  like_antisymm := like_antisymm

/-- Numbers compare by size. -/
structure NumberComparisons (m n : Int32) : Prop where
  lt_iff : (int m).Holds .lt (int n) ↔ m.toInt < n.toInt
  like_iff : (int m).Holds .like (int n) ↔ m = n

lemma numberComparisons (m n : Int32) : NumberComparisons m n where
  lt_iff := by
    rw [(ordered_int m n).lt_iff, ← Int32.lt_iff_toInt_lt]
    exact Std.compare_eq_lt
  like_iff := holds_like_int

/-- Texts compare by their bytes, which is by their characters, and one is found in another. -/
structure TextComparisons (s t : String) : Prop where
  lt_iff_bytes : (text s).Holds .lt (text t) ↔ Utf8.encode s < Utf8.encode t
  lt_iff_characters : (text s).Holds .lt (text t) ↔
    s.toList.map Char.toNat < t.toList.map Char.toNat
  like_iff : (text s).Holds .like (text t) ↔ ∃ u v : String, s = u ++ t ++ v
  like_iff_bytes : (text s).Holds .like (text t) ↔ Utf8.encode t <:+: Utf8.encode s

lemma textComparisons (s t : String) : TextComparisons s t := by
  have hlt : (text s).Holds .lt (text t) ↔ s < t :=
    (ordered_text s t).lt_iff.trans Utf8.order_eq_lt_iff
  constructor
  · rw [hlt, Utf8.encode_lt_encode_iff]
  · rw [hlt, Utf8.map_toNat_lt_map_toNat_iff, String.lt_iff_toList_lt]
  · rw [holds_like_text, Utf8.toList_infix_toList_iff]
  · rw [holds_like_text, Utf8.encode_infix_encode_iff]

/-- What is asked of two values is asked the other way round by the converse comparison. -/
lemma test_converse (hab : a.kind = b.kind) {op : Comparison} (hop : op ≠ .like) :
    b.test op.converse a = a.test op b := by
  have h := ordered hab
  have h' := ordered hab.symm
  have hswap := order_swap a b
  rcases op with _ | _ | _ | _ | _ | _ <;> rw [Comparison.converse]
  · rw [h'.eq, h.eq, ← hswap, Ordering.isEq_swap]
  · rw [h'.lt, h.gt, ← hswap, Ordering.isLT_swap]
  · rw [h'.gt, h.lt, ← hswap, Ordering.isGT_swap]
  · rw [h'.ge, h.le, ← hswap, Ordering.isGE_swap]
  · rw [h'.le, h.ge, ← hswap, Ordering.isLE_swap]
  · exact absurd rfl hop

end Value

/-! ## Joins turned round -/

/-- A comparison of two fields that is answered is answered the same the other way round. -/
lemma testFields_converse_ok {op : Comparison} (hop : op ≠ .like) {x y : Option Value} {b : Bool} :
    testFields op.converse y x = .ok b ↔ testFields op x y = .ok b := by
  rcases x with _ | a <;> rcases y with _ | c
  · rfl
  · rfl
  · rfl
  · by_cases hkind : a.kind = c.kind
    · rw [testFields, testFields, Value.test_converse hkind hop]
    · rw [testFields, testFields, Value.test_eq_error hkind, Value.test_eq_error (Ne.symm hkind)]
      simp

/-- A comparison of two fields that is refused is refused the other way round as well. -/
lemma testFields_converse_error {op : Comparison} {x y : Option Value} {k k' : String} :
    testFields op.converse y x = .error (.typeMismatch k' k) ↔
      testFields op x y = .error (.typeMismatch k k') := by
  rcases x with _ | a <;> rcases y with _ | c
  · simp [testFields]
  · simp [testFields]
  · simp [testFields]
  · rw [testFields, testFields]
    by_cases hkind : a.kind = c.kind
    · obtain ⟨answer, hanswer⟩ := Value.test_eq_ok hkind op
      obtain ⟨answer', hanswer'⟩ := Value.test_eq_ok hkind.symm op.converse
      rw [hanswer, hanswer']
      simp
    · rw [Value.test_eq_error hkind, Value.test_eq_error (Ne.symm hkind)]
      simp [and_comm]

namespace JoinPredicate

/-- The join predicate for the sides in each other's place. -/
def mirror (p : JoinPredicate) : JoinPredicate := ⟨p.right, p.op.converse, p.left⟩

/-- The pairs of a left and a right row that match. -/
def selected (p : JoinPredicate) (left right : Multiset Row) : Multiset (Row × Row) :=
  (left ×ˢ right).filter fun x => p.test x.1 x.2 = .ok true

/-- An answer is that for the two fields, which are there. -/
lemma test_eq_liftError_iff {p : JoinPredicate} {l r : Row} {answer : Except Error Bool} :
    p.test l r = liftError answer ↔ ∃ x y, l.fields[p.left]? = some x ∧
      r.fields[p.right]? = some y ∧ testFields p.op x y = answer := by
  have hinj : ∀ {x y : Except Error Bool}, liftError x = liftError y ↔ x = y := by
    rintro (e | a) (e' | b) <;> simp [liftError]
  have hmissing : ∀ {e : Violation}, ¬ Except.error (.violation e) = liftError answer := by
    rcases answer with e | b <;> simp [liftError]
  simp only [test, Row.get]
  rcases l.fields[p.left]? with _ | x <;> rcases r.fields[p.right]? with _ | y
  · exact iff_of_false hmissing (by simp)
  · exact iff_of_false hmissing (by simp)
  · exact iff_of_false hmissing (by simp)
  · trans liftError (testFields p.op x y) = liftError answer
    · rfl
    · rw [hinj]
      simp

lemma test_eq_ok_iff {p : JoinPredicate} {l r : Row} {b : Bool} :
    p.test l r = .ok b ↔ ∃ x y, l.fields[p.left]? = some x ∧
      r.fields[p.right]? = some y ∧ testFields p.op x y = .ok b := by
  rw [← test_eq_liftError_iff, liftError]

/-- A join predicate and its mirror image agree on every two rows and select the same pairs. -/
structure Mirrors (p : JoinPredicate) : Prop where
  answers : ∀ l r b, p.mirror.test r l = .ok b ↔ p.test l r = .ok b
  refusals : ∀ l r k k', p.mirror.test r l = .error (.error (.typeMismatch k' k)) ↔
    p.test l r = .error (.error (.typeMismatch k k'))
  selects : ∀ left right : Multiset Row,
    p.mirror.selected right left = (p.selected left right).map Prod.swap

/-- What two comparisons of two fields have in common, the predicates with them have in common. -/
lemma test_mirror_iff {p : JoinPredicate} {answer answer' : Except Error Bool}
    (h : ∀ x y, testFields p.op.converse y x = answer' ↔ testFields p.op x y = answer) (l r : Row) :
    p.mirror.test r l = liftError answer' ↔ p.test l r = liftError answer := by
  rw [test_eq_liftError_iff, test_eq_liftError_iff]
  constructor
  · rintro ⟨y, x, hy, hx, hanswer⟩
    exact ⟨x, y, hx, hy, (h x y).1 hanswer⟩
  · rintro ⟨x, y, hx, hy, hanswer⟩
    exact ⟨y, x, hy, hx, (h x y).2 hanswer⟩

lemma mirrors {p : JoinPredicate} (hop : p.op ≠ .like) : p.Mirrors := by
  have hanswers : ∀ l r b, p.mirror.test r l = .ok b ↔ p.test l r = .ok b := fun l r _ =>
    test_mirror_iff (fun _ _ => testFields_converse_ok hop) l r
  refine ⟨hanswers, ?_, ?_⟩
  · exact fun l r _ _ => test_mirror_iff (fun _ _ => testFields_converse_error) l r
  · intro left right
    rw [selected, selected, ← Multiset.map_swap_product left right, Multiset.filter_map]
    congr 1
    exact Multiset.filter_congr fun x _ => hanswers x.1 x.2 true

/-- A search in texts that succeeds both ways is one of a text in itself. -/
lemma fields_eq_of_like {p : JoinPredicate} (hop : p.op = .like) {l r : Row}
    (h : p.test l r = .ok true) (hmirror : p.mirror.test r l = .ok true) :
    l.fields[p.left]? = r.fields[p.right]? := by
  obtain ⟨x, y, hx, hy, hxy⟩ := test_eq_ok_iff.1 h
  obtain ⟨y', x', hy', hx', hyx⟩ := test_eq_ok_iff.1 hmirror
  obtain rfl : x = x' := Option.some.inj (hx.symm.trans hx')
  obtain rfl : y = y' := Option.some.inj (hy.symm.trans hy')
  rw [hop] at hxy
  rw [mirror, hop] at hyx
  rcases x with _ | a <;> rcases y with _ | b
  · rw [hx, hy]
  · cases hxy
  · cases hxy
  · rw [hx, hy, Value.like_antisymm hxy hyx]

end JoinPredicate

/-! ## The result -/

/-- **All comparisons come from one order.**  Values of one kind are compared as they are ordered,
so that exactly one of `<`, `=` and `>` holds between two of them, and `<` is transitive.  Numbers
are ordered by size, and texts by their bytes, which is by their characters.  A search in a text
finds what the text consists of together with something before and after it, and is reflexive,
transitive and antisymmetric.  Values of different kinds do not compare at all.

Hence a join predicate may be turned round: it selects the same pairs of any rows, the other way
round.  Only the search in texts cannot be turned round, unless the two texts are equal. -/
theorem Value.comparisons_of_one_order :
    (∀ a b c : Value, a.kind = b.kind → b.kind = c.kind → Value.OneOrder a b c) ∧
    (∀ m n : Int32, Value.NumberComparisons m n) ∧
    (∀ s t : String, Value.TextComparisons s t) ∧
    (∀ a b : Value, a.kind ≠ b.kind → ∀ op,
      a.test op b = .error (.typeMismatch a.kind b.kind)) ∧
    ∀ p : JoinPredicate, (p.op ≠ .like → p.Mirrors) ∧
      (p.op = .like → ∀ l r, p.test l r = .ok true → p.mirror.test r l = .ok true →
        l.fields[p.left]? = r.fields[p.right]?) :=
  ⟨fun _ _ _ => Value.oneOrder, Value.numberComparisons, Value.textComparisons,
    fun _ _ => Value.test_eq_error,
    fun _ => ⟨JoinPredicate.mirrors, fun hop _ _ => JoinPredicate.fields_eq_of_like hop⟩⟩

/-- The comparisons of some texts with characters of one, two and three bytes, of a number with a
text, of two fields by `<`, and a text that is found in itself. -/
theorem Value.comparisons_of_one_order_accented :
    (Value.text "zoo").kind = (Value.text "zoë").kind ∧
    (Value.text "zoë").kind = (Value.text "zo€").kind ∧
    (Value.text "zoo").Holds .lt (.text "zoë") ∧ (Value.text "zoë").Holds .lt (.text "zo€") ∧
    (Value.text "zoo").Holds .lt (.text "zo€") ∧
    (Value.int (-5)).Holds .lt (.int 3) ∧ (Value.text "naïve").Holds .like (.text "ïv") ∧
    (Value.int 7).kind ≠ (Value.text "7").kind ∧
    (Value.int 7).test .le (.text "7") = .error (.typeMismatch "INT_TYPE" "STRING_TYPE") ∧
    Comparison.lt ≠ .like ∧ (⟨0, .lt, 1⟩ : JoinPredicate).Mirrors ∧
    (let p : JoinPredicate := ⟨0, .like, 0⟩
      let r : Row := ⟨⟨[⟨.standardText, none⟩], by decide⟩, [some (.text "naïve")], none⟩
      p.test r r = .ok true ∧ p.mirror.test r r = .ok true ∧
        r.fields[p.left]? = r.fields[p.right]?) := by
  obtain ⟨horder, hnumbers, htexts, hkinds, hjoins⟩ := Value.comparisons_of_one_order
  have hzoo : (Value.text "zoo").Holds .lt (.text "zoë") :=
    (htexts _ _).lt_iff_bytes.2 (by decide)
  have hzoe : (Value.text "zoë").Holds .lt (.text "zo€") :=
    (htexts _ _).lt_iff_bytes.2 (by decide)
  have htrans := (horder (.text "zoo") (.text "zoë") (.text "zo€") rfl rfl).lt_trans hzoo hzoe
  refine ⟨rfl, rfl, hzoo, hzoe, htrans,
    (hnumbers _ _).lt_iff.2 (by decide), (htexts _ _).like_iff.2 ⟨"na", "e", by decide⟩,
    by decide, hkinds _ _ (by decide) .le, by decide, (hjoins _).1 (by decide), ?_, ?_, ?_⟩
  · decide
  · decide
  · exact (hjoins _).2 rfl _ _ (by decide) (by decide)

end RowStore
