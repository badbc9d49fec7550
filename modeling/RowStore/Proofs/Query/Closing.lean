import RowStore.Proofs.Query.Governance

/-!
# Closed plans

A cursor only closes what is below it if it takes itself for open, so it is not obvious that nothing
is left open below a closed one.  It follows from what every call keeps, under the regime that asks
for nothing (`Regime.free`): whenever an operator with one row ahead is not open, all operators
below it are shut.  Closing leads to a shut state, and so does a start that fails, unless the plan
is a table scan and nothing else (`Plan.shut_of_start_error`): such a scan goes on with what it was
reading.

In a shut state no operator answers (`Plan.Shut.isClosed`), no page is held, closing does nothing,
and opening goes as it does for a cursor that was never opened (`Plan.resets`).
-/

namespace RowStore

variable {W σ τ : Type}

/-- A cursor refuses all calls but opening, and closing it does nothing. -/
structure Cursor.IsClosed (c : Cursor W σ) (s : σ) : Prop where
  hasNext : ∀ w, c.hasNext s w = (.error (notOpen hasNextText), s, w)
  next : ∀ w, c.next s w = (.error (notOpen nextText), s, w)
  rewind : ∀ w, c.rewind s w = (.error (notOpen rewindText), s, w)
  close : ∀ w, c.close s w = (s, w)

/-- Opening a cursor goes the same way from two states; if it succeeds, they have become one. -/
def Cursor.StartsAlike (c : Cursor W σ) (s s' : σ) : Prop :=
  ∀ w, ∃ answer t t' w₁, c.start s w = (answer, t, w₁) ∧ c.start s' w = (answer, t', w₁) ∧
    (answer = .ok () → t = t')

/-- Opening a feed goes the same way from two states, and if it fails, so does closing it then. -/
def Feed.StartsAlike (f : Feed W σ) (s s' : σ) : Prop :=
  ∀ w, ∃ answer t t' w₁, f.start s w = (answer, t, w₁) ∧ f.start s' w = (answer, t', w₁) ∧
    (answer = .ok () → t = t') ∧ (f.close t w₁).2 = (f.close t' w₁).2

/-- In its shut states a cursor is as if it had never been opened. -/
structure Cursor.Resets (c : Cursor W σ) (Z : σ → Prop) : Prop where
  startsAlike : ∀ {s s'}, Z s → Z s' → c.StartsAlike s s'
  start_error : ∀ {s s' w w' e}, Z s → c.start s w = (.error e, s', w') → Z s'
  close : ∀ {s}, Z s → ∀ w, c.close s w = (s, w)

namespace Lookahead

variable {f : Feed W σ} {Z : σ → Prop} {s s' : Lookahead σ}

lemma Shut.isClosed (hs : s.Shut Z) : (cursor f).IsClosed s := by
  obtain ⟨feed, ahead, isOpen⟩ := s
  obtain ⟨rfl, rfl, -⟩ := hs
  exact ⟨fun _ => rfl, fun _ => rfl, fun _ => rfl, fun _ => rfl⟩

lemma startsAlike (h : f.StartsAlike s.feed s'.feed) : (cursor f).StartsAlike s s' := by
  intro w
  obtain ⟨answer, t, t', w₁, hstart, hstart', hsame, hclose⟩ := h w
  rcases answer with e | ⟨⟩
  · refine ⟨.error e, ⟨(f.close t w₁).1, none, false⟩, ⟨(f.close t' w₁).1, none, false⟩,
      (f.close t w₁).2, ?_, ?_, fun h => by cases h⟩
    · simp only [cursor, start, hstart]
    · simp only [cursor, start, hstart', hclose]
  · obtain rfl := hsame rfl
    refine ⟨.ok (), ⟨t, none, true⟩, ⟨t, none, true⟩, w₁, ?_, ?_, fun _ => rfl⟩
    · simp only [cursor, start, hstart]
    · simp only [cursor, start, hstart']

/-- A start that fails leaves the cursor closed. -/
lemma closed_of_start_error {w w' : W} {e : Failure}
    (h : (cursor f).start s w = (.error e, s', w')) : s'.isOpen = false := by
  simp only [cursor, start] at h
  split at h <;> cases h
  rfl

end Lookahead

namespace Cursor.Resets

variable {Z : σ → Prop} {c : Cursor W σ}

lemma filter (hc : c.Resets Z) (test : Row → Except Failure Bool) (fin : c.Finite) {s s' : σ}
    (hs : Z s) (hs' : Z s') : (Filter.feed test c fin).StartsAlike s s' := by
  intro w
  obtain ⟨answer, t, t', w₁, hstart, hstart', hsame⟩ := hc.startsAlike hs hs' w
  refine ⟨answer, t, t', w₁, hstart, hstart', hsame, ?_⟩
  rcases answer with e | ⟨⟩
  · simp only [Filter.feed, hc.close (hc.start_error hs hstart),
      hc.close (hc.start_error hs' hstart')]
  · rw [hsame rfl]

/-- If the right child of a join fails to open, the left one is closed from the same state, and the
right one was shut. -/
lemma join {Y : σ → Prop} {Z : τ → Prop} {j : Join W σ τ} (hl : j.left.Resets Y)
    (hr : j.right.Resets Z) {s s' : JoinState σ τ} (hs : s.Shut Y Z) (hs' : s'.Shut Y Z) :
    j.feed.StartsAlike s s' := by
  intro w
  obtain ⟨answer, l, l', w₁, hleft, hleft', hsame⟩ := hl.startsAlike hs.left hs'.left w
  rcases answer with e | ⟨⟩
  · refine ⟨.error e, ⟨l, s.right, s.current⟩, ⟨l', s'.right, s'.current⟩, w₁, ?_, ?_,
      fun h => (by cases h), ?_⟩
    · simp only [Join.feed, Join.start, hleft]
    · simp only [Join.feed, Join.start, hleft']
    · simp only [Join.feed, Join.close, hl.close (hl.start_error hs.left hleft),
        hl.close (hl.start_error hs'.left hleft'), hr.close hs.right, hr.close hs'.right]
  obtain rfl := hsame rfl
  obtain ⟨answer, r, r', w₂, hright, hright', hsame⟩ := hr.startsAlike hs.right hs'.right w₁
  rcases answer with e | ⟨⟩
  · refine ⟨.error e, ⟨l, r, s.current⟩, ⟨l, r', s'.current⟩, w₂, ?_, ?_,
      fun h => (by cases h), ?_⟩
    · simp only [Join.feed, Join.start, hleft, hright]
    · simp only [Join.feed, Join.start, hleft', hright']
    · simp only [Join.feed, Join.close, hr.close (hr.start_error hs.right hright),
        hr.close (hr.start_error hs'.right hright')]
  · obtain rfl := hsame rfl
    refine ⟨.ok (), ⟨l, r, none⟩, ⟨l, r, none⟩, w₂, ?_, ?_, fun _ => rfl, rfl⟩
    · simp only [Join.feed, Join.start, hleft, hright]
    · simp only [Join.feed, Join.start, hleft', hright']

lemma aggregation (hc : c.Resets Z) (a : Aggregation) (order : Arrangement W) (fin : c.Finite)
    {s s' : AggregationState σ} (hs : s.Shut Z) (hs' : s'.Shut Z) :
    (a.feed order c fin).StartsAlike s s' := by
  intro w
  obtain ⟨child, results⟩ := s
  obtain ⟨child', results'⟩ := s'
  obtain ⟨hchild, rfl⟩ := hs
  obtain ⟨hchild', rfl⟩ := hs'
  obtain ⟨answer, t, t', w₁, hstart, hstart', hsame⟩ := hc.startsAlike hchild hchild' w
  rcases answer with e | ⟨⟩
  · refine ⟨.error e, ⟨t, none⟩, ⟨t', none⟩, w₁, ?_, ?_, fun h => (by cases h), ?_⟩
    · simp only [Aggregation.feed, Aggregation.start, hstart]
    · simp only [Aggregation.feed, Aggregation.start, hstart']
    · simp only [Aggregation.feed, Aggregation.close, hc.close (hc.start_error hchild hstart),
        hc.close (hc.start_error hchild' hstart')]
  · -- From here on both are in the same state.
    obtain rfl := hsame rfl
    rcases hmake : a.start order c fin ⟨child, none⟩ w with ⟨answer, made, w₂⟩
    have hmake' : a.start order c fin ⟨child', none⟩ w = (answer, made, w₂) := by
      rw [← hmake]
      simp only [Aggregation.start, hstart, hstart']
    exact ⟨answer, made, made, w₂, hmake, hmake', fun _ => rfl, rfl⟩

end Cursor.Resets

variable [Storage W]

/-- The regime that asks for nothing. -/
def Regime.free (W : Type) [Storage W] (limit : ℕ) : Regime W where
  limit := limit
  Good _ _ := True
  Fault _ _ := True
  Conforms _ _ := True
  Scans _ := True
  File _ _ := True
  fault_notOpen _ _ := trivial
  fault_exhausted _ := trivial
  fault_release _ _ := trivial
  file _ _ _ _ _ := trivial
  heapFile _ _ _ _ _ := trivial
  shape _ _ _ _ _ _ := trivial
  pageCount _ _ _ _ := trivial
  request {_ w} _ _ page := by
    rcases Storage.request page .readOnly w with ⟨e | h, w'⟩
    · exact .inl ⟨e, w', rfl, trivial, trivial⟩
    · exact .inr ⟨h, w', rfl, trivial, fun _ _ _ _ _ _ _ => trivial⟩
  release _ := trivial

lemma Regime.indifferent_free (limit : ℕ) : (Regime.free W limit).Indifferent where
  conforms _ _ := trivial
  scans _ := trivial
  fault _ _ := trivial

namespace Plan

variable {p : Plan} {orders : p.Orders W} {s s' : p.State} {w w' : W}

/-! ## Shut states -/

/-- The operators of a plan, each with its state, from the root down and from left to right. -/
def operators : (p : Plan) → p.State → List (Σ q : Plan, q.State)
  | rows schema list, s => [⟨rows schema list, s⟩]
  | scan t, s => [⟨scan t, s⟩]
  | filter predicate child, s =>
    ⟨filter predicate child, s⟩ :: child.operators (Lookahead.feed s)
  | join predicate left right, s =>
    ⟨join predicate left right, s⟩ ::
      (left.operators (Lookahead.feed s).left ++ right.operators (Lookahead.feed s).right)
  | aggregate a child, s => ⟨aggregate a child, s⟩ :: child.operators (Lookahead.feed s).child

/-- What passes on from every operator to those right below it holds of all operators of a plan. -/
lemma forall_operators {P : (q : Plan) → q.State → Prop}
    (hfilter : ∀ {predicate child} {s : (filter predicate child).State},
      P (filter predicate child) s → P child (Lookahead.feed s))
    (hjoin : ∀ {predicate left right} {s : (join predicate left right).State},
      P (join predicate left right) s →
        P left (Lookahead.feed s).left ∧ P right (Lookahead.feed s).right)
    (haggregate : ∀ {a child} {s : (aggregate a child).State}, P (aggregate a child) s →
      P child (Lookahead.feed s).child) {p : Plan} {s : p.State} (hs : P p s) :
    ∀ o ∈ p.operators s, P o.1 o.2 := by
  induction p with
  | rows schema list => exact fun o ho => List.mem_singleton.1 ho ▸ hs
  | scan t => exact fun o ho => List.mem_singleton.1 ho ▸ hs
  | filter predicate child ih => exact List.forall_mem_cons.2 ⟨hs, ih (hfilter hs)⟩
  | join predicate left right ihl ihr =>
    refine List.forall_mem_cons.2 ⟨hs, List.forall_mem_append.2 ?_⟩
    exact ⟨ihl (hjoin hs).1, ihr (hjoin hs).2⟩
  | aggregate a child ih => exact List.forall_mem_cons.2 ⟨hs, ih (haggregate hs)⟩

lemma shut_initial (p : Plan) : p.Shut p.initial := by
  induction p with
  | rows schema list => exact ⟨rfl, rfl, trivial⟩
  | scan t => rfl
  | filter predicate child ih => exact ⟨rfl, rfl, ih⟩
  | join predicate left right ihl ihr => exact ⟨rfl, rfl, ihl, ihr, rfl⟩
  | aggregate a child ih => exact ⟨rfl, rfl, ih, rfl⟩

namespace Shut

/-- Nothing is held. -/
lemma handles_eq (hs : p.Shut s) : p.handles s = [] := by
  induction p with
  | rows schema list => rfl
  | scan t =>
    obtain rfl : s = none := hs
    rfl
  | filter predicate child ih => exact ih hs.feed
  | join predicate left right ihl ihr =>
    exact List.append_eq_nil_iff.2 ⟨ihl hs.feed.left, ihr hs.feed.right⟩
  | aggregate a child ih => exact ih hs.feed.child

/-- Every operator is shut. -/
lemma of_mem_operators (hs : p.Shut s) {o : Σ q : Plan, q.State} (ho : o ∈ p.operators s) :
    o.1.Shut o.2 :=
  forall_operators (P := fun q t => q.Shut t) (fun h => h.feed)
    (fun h => ⟨h.feed.left, h.feed.right⟩) (fun h => h.feed.child) hs o ho

/-- No call but opening is answered. -/
lemma isClosed (hs : p.Shut s) : (p.cursor orders).IsClosed s := by
  cases p with
  | rows schema list => exact Lookahead.Shut.isClosed hs
  | scan t =>
    obtain rfl : s = none := hs
    exact ⟨fun _ => rfl, fun _ => rfl, fun _ => rfl, fun _ => rfl⟩
  | filter predicate child => exact Lookahead.Shut.isClosed hs
  | join predicate left right => exact Lookahead.Shut.isClosed hs
  | aggregate a child => exact Lookahead.Shut.isClosed hs

end Shut

/-! ## How plans are shut -/

/-- Under a regime a start that fails leads to a shut state, because the operator at the root is not
open then. -/
lemma Tidy.shut_of_start_error {G : Regime W} (hp : ∀ t, p ≠ scan t) (hs : p.Tidy G s')
    {e : Failure} (h : (p.cursor orders).start s w = (.error e, s', w')) : p.Shut s' := by
  cases p with
  | scan t => exact absurd rfl (hp t)
  | rows schema list => exact hs.shut (Lookahead.closed_of_start_error h)
  | filter predicate child => exact hs.shut (Lookahead.closed_of_start_error h)
  | join predicate left right => exact hs.shut (Lookahead.closed_of_start_error h)
  | aggregate a child => exact hs.shut (Lookahead.closed_of_start_error h)

/-- A start that fails from a shut state leads to one. -/
lemma Shut.start_error (hs : p.Shut s) {e : Failure}
    (h : (p.cursor orders).start s w = (.error e, s', w')) : p.Shut s' := by
  have hgoverned := p.governed orders ((Regime.indifferent_free p.footprint.need).suits p)
  obtain ⟨answer, t, w₁, hstart, ht, -⟩ :=
    hgoverned.start (R := 0) (Nat.le_refl _) (hgoverned.of_shut hs) trivial
  cases h.symm.trans hstart
  by_cases hp : ∃ t, p = scan t
  · obtain ⟨t, rfl⟩ := hp
    exact (TableScan.start_eq_error h).1.trans hs
  · exact Tidy.shut_of_start_error (fun t heq => hp ⟨t, heq⟩) ht h

/-! ## Opening a shut plan -/

lemma resets_of_startsAlike
    (h : ∀ {s s'}, p.Shut s → p.Shut s' → (p.cursor orders).StartsAlike s s') :
    (p.cursor orders).Resets p.Shut :=
  ⟨h, fun hs hstart => hs.start_error hstart, fun hs => hs.isClosed.close⟩

/-- **A shut plan opens as if it had never been opened**, in every world: from any two shut states a
start has the same answer and leaves the same world behind, and the same state if it succeeds. -/
theorem resets (p : Plan) (orders : p.Orders W) : (p.cursor orders).Resets p.Shut := by
  induction p with
  | rows schema list =>
    refine resets_of_startsAlike fun _ _ => Lookahead.startsAlike fun w => ?_
    exact ⟨.ok (), 0, 0, w, rfl, rfl, fun _ => rfl, rfl⟩
  | scan t =>
    refine resets_of_startsAlike fun {s s'} hs hs' w => ?_
    obtain rfl : s = none := hs
    obtain rfl : s' = none := hs'
    exact ⟨_, _, _, _, rfl, rfl, fun _ => rfl⟩
  | filter predicate child ih =>
    exact resets_of_startsAlike fun hs hs' =>
      Lookahead.startsAlike ((ih orders).filter _ _ hs.feed hs'.feed)
  | join predicate left right ihl ihr =>
    exact resets_of_startsAlike fun hs hs' =>
      Lookahead.startsAlike ((ihl orders.1).join (ihr orders.2) hs.feed hs'.feed)
  | aggregate a child ih =>
    exact resets_of_startsAlike fun hs hs' =>
      Lookahead.startsAlike ((ih orders.2).aggregation a orders.1 _ hs.feed hs'.feed)

end Plan

end RowStore
