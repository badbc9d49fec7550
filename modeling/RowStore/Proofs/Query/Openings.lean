import RowStore.Proofs.Query.Lockstep

/-!
# Opening and closing in step

Opening a plan keeps two worlds in step, as the calls on an open plan do, if its aggregations list
their groups alike in both (`Plan.openings_inStep`).  An order of groups may depend on the world, so
this is asked for by a way to see the first world from the second one.

Closing makes no request, so nothing can break in it: it gives certain handles back, the same ones
in every world.  A cursor that fails to open closes what it had opened before.  That is why closing
has to be dealt with first, and why what was broken must stay so when handles are given back.
-/

namespace RowStore

variable {V W σ τ : Type} [Storage V] [Storage W]

/-! ## Orders seen from another world -/

/-- An order of groups in a world from which another one can be seen. -/
def Arrangement.seen (see : W → V) (order : Arrangement V) : Arrangement W where
  apply y := order.apply (see y)
  perm y := order.perm (see y)

/-- The orders of the aggregations of a plan in a world from which another one can be seen. -/
def Plan.Orders.seen (see : W → V) : {p : Plan} → p.Orders V → p.Orders W
  | rows _ _, _ | scan _, _ => ()
  | filter _ child, orders => seen see (p := child) orders
  | join _ _ _, orders => (seen see orders.1, seen see orders.2)
  | aggregate _ _, orders => (orders.1.seen see, seen see orders.2)

/-! ## Closing -/

/-- Gives several handles back. -/
def releaseAll (hs : List (Handle Page)) (w : W) : W := hs.foldl (fun w h => Storage.release h w) w

lemma releaseAll_append (hs hs' : List (Handle Page)) (w : W) :
    releaseAll (hs ++ hs') w = releaseAll hs' (releaseAll hs w) :=
  List.foldl_append

/-- Closing leads to the same state in two worlds, and gives the same handles back. -/
def ClosesAlike (close : σ → V → σ × V) (close' : σ → W → σ × W) : Prop :=
  ∀ s, ∃ s' hs, (∀ x, close s x = (s', releaseAll hs x)) ∧
    ∀ y, close' s y = (s', releaseAll hs y)

namespace ClosesAlike

lemma lookahead {f : Feed V σ} {f' : Feed W σ} (h : ClosesAlike f.close f'.close) :
    ClosesAlike (Lookahead.close f) (Lookahead.close f') := by
  rintro ⟨feed, ahead, _ | _⟩
  · exact ⟨⟨feed, none, false⟩, [], fun _ => rfl, fun _ => rfl⟩
  · obtain ⟨feed', hs, hx, hy⟩ := h feed
    refine ⟨⟨feed', none, false⟩, hs, fun x => ?_, fun y => ?_⟩
    · simp only [Lookahead.close, hx, if_true]
    · simp only [Lookahead.close, hy, if_true]

lemma join {j : Join V σ τ} {j' : Join W σ τ} (hl : ClosesAlike j.left.close j'.left.close)
    (hr : ClosesAlike j.right.close j'.right.close) : ClosesAlike j.close j'.close := by
  rintro ⟨left, right, current⟩
  obtain ⟨left', hs, hx, hy⟩ := hl left
  obtain ⟨right', hs', hx', hy'⟩ := hr right
  refine ⟨⟨left', right', none⟩, hs ++ hs', fun x => ?_, fun y => ?_⟩
  · simp only [Join.close, hx, hx', releaseAll_append]
  · simp only [Join.close, hy, hy', releaseAll_append]

lemma aggregation {c : Cursor V σ} {c' : Cursor W σ} (h : ClosesAlike c.close c'.close) :
    ClosesAlike (Aggregation.close c) (Aggregation.close c') := by
  rintro ⟨child, results⟩
  obtain ⟨child', hs, hx, hy⟩ := h child
  refine ⟨⟨child', none⟩, hs, fun x => ?_, fun y => ?_⟩
  · simp only [Aggregation.close, hx]
  · simp only [Aggregation.close, hy]

end ClosesAlike

lemma closesAlike_table (t : TableScan) :
    ClosesAlike (t.cursor (W := V)).close (t.cursor (W := W)).close := by
  rintro (_ | ⟨file, _ | ⟨pageCount, nextPage, _ | ⟨h, rows⟩, ahead⟩⟩)
  · exact ⟨none, [], fun _ => rfl, fun _ => rfl⟩
  · exact ⟨none, [], fun _ => rfl, fun _ => rfl⟩
  · exact ⟨none, [], fun _ => rfl, fun _ => rfl⟩
  · exact ⟨none, [h], fun _ => rfl, fun _ => rfl⟩

/-! ## Opening -/

namespace Lockstep

variable {L : Lockstep V W}

lemma rel_releaseAll (hs : List (Handle Page)) {x : V} {y : W} (hxy : L.Rel x y) :
    L.Rel (releaseAll hs x) (releaseAll hs y) := by
  induction hs generalizing x y with
  | nil => exact hxy
  | cons h hs ih => exact ih (L.release hxy h)

lemma broken_releaseAll (hs : List (Handle Page)) {e : Error} {x : V} (he : L.Broken e x) :
    L.Broken e (releaseAll hs x) := by
  induction hs generalizing x with
  | nil => exact he
  | cons h hs ih => exact ih (L.broken_release he h)

variable (L) in
/-- Opening a cursor keeps step, and closing it does the same in both worlds. -/
structure Openings (c : Cursor V σ) (c' : Cursor W σ) : Prop where
  start : L.Keeps c.start c'.start
  close : ClosesAlike c.close c'.close

/-- A feed that fails to get ready is closed, in step or broken as it is. -/
lemma Openings.lookahead {f : Feed V σ} {f' : Feed W σ} (hstart : L.Keeps f.start f'.start)
    (hclose : ClosesAlike f.close f'.close) :
    L.Openings (Lookahead.cursor f) (Lookahead.cursor f') where
  start := by
    intro s x y hxy
    obtain ⟨answer, feed, x₁, y₁, hx, hy, h₁⟩ | ⟨e, feed, x₁, hx, he⟩ := hstart s.feed x y hxy
    · rcases answer with e | ⟨⟩
      · obtain ⟨feed', hs, hx', hy'⟩ := hclose feed
        refine .inl ⟨.error e, ⟨feed', none, false⟩, _, _, ?_, ?_, L.rel_releaseAll hs h₁⟩ <;>
          simp only [Lookahead.cursor, Lookahead.start, hx, hy, hx', hy']
      · refine .inl ⟨.ok (), ⟨feed, none, true⟩, x₁, y₁, ?_, ?_, h₁⟩ <;>
          simp only [Lookahead.cursor, Lookahead.start, hx, hy]
    · obtain ⟨feed', hs, hx', -⟩ := hclose feed
      refine .inr ⟨e, ⟨feed', none, false⟩, _, ?_, L.broken_releaseAll hs he⟩
      simp only [Lookahead.cursor, Lookahead.start, hx, hx']
  close := hclose.lookahead

/-- Opening the children of a join in turn. -/
lemma Openings.start_join {j : Join V σ τ} {j' : Join W σ τ} (hl : L.Openings j.left j'.left)
    (hr : L.Openings j.right j'.right) : L.Keeps j.start j'.start := by
  rintro ⟨left, right, current⟩ x y hxy
  obtain ⟨answer, left₁, x₁, y₁, hx, hy, h₁⟩ | ⟨e, left₁, x₁, hx, he⟩ := hl.start left x y hxy
  · rcases answer with e | ⟨⟩
    · refine .inl ⟨.error e, ⟨left₁, right, current⟩, x₁, y₁, ?_, ?_, h₁⟩ <;>
        simp only [Join.start, hx, hy]
    · obtain ⟨answer, right₁, x₂, y₂, hx', hy', h₂⟩ | ⟨e, right₁, x₂, hx', he⟩ :=
        hr.start right x₁ y₁ h₁
      · rcases answer with e | ⟨⟩
        · refine .inl ⟨.error e, ⟨left₁, right₁, current⟩, x₂, y₂, ?_, ?_, h₂⟩ <;>
            simp only [Join.start, hx, hy, hx', hy']
        · refine .inl ⟨.ok (), ⟨left₁, right₁, none⟩, x₂, y₂, ?_, ?_, h₂⟩ <;>
            simp only [Join.start, hx, hy, hx', hy']
      · refine .inr ⟨e, ⟨left₁, right₁, current⟩, x₂, ?_, he⟩
        simp only [Join.start, hx, hx']
  · refine .inr ⟨e, ⟨left₁, right, current⟩, x₁, ?_, he⟩
    simp only [Join.start, hx]

/-- Opening the child of an aggregation, taking in its rows and listing the results. -/
lemma Openings.start_aggregation {c : Cursor V σ} {c' : Cursor W σ} (ho : L.Openings c c')
    (hc : L.Cursors c c') (fin : c.Finite) (fin' : c'.Finite) (a : Aggregation)
    {see : W → V} (hsee : ∀ {x y}, L.Rel x y → see y = x) (order : Arrangement V) :
    L.Keeps (a.start order c fin) (a.start (order.seen see) c' fin') := by
  rintro ⟨child, results⟩ x y hxy
  obtain ⟨answer, child₁, x₁, y₁, hx, hy, h₁⟩ | ⟨e, child₁, x₁, hx, he⟩ := ho.start child x y hxy
  · rcases answer with e | ⟨⟩
    · refine .inl ⟨.error e, ⟨child₁, results⟩, x₁, y₁, ?_, ?_, h₁⟩ <;>
        simp only [Aggregation.start, hx, hy]
    rcases hinitial : a.aggregator with e | initial
    · refine .inl ⟨.error (.error e), ⟨child₁, results⟩, x₁, y₁, ?_, ?_, h₁⟩ <;>
        simp only [Aggregation.start, hx, hy, hinitial]
    obtain ⟨answer, child₂, x₂, y₂, hx', hy', h₂⟩ | ⟨e, child₂, x₂, hx', he⟩ :=
      hc.fold fin fin' Aggregator.merge initial child₁ x₁ y₁ h₁
    · rcases answer with e | final
      · refine .inl ⟨.error e, ⟨child₂, results⟩, x₂, y₂, ?_, ?_, h₂⟩ <;>
          simp only [Aggregation.start, hx, hy, hinitial, hx', hy']
      rcases hrows : final.results with e | rows
      · refine .inl ⟨.error e, ⟨child₂, results⟩, x₂, y₂, ?_, ?_, h₂⟩ <;>
          simp only [Aggregation.start, hx, hy, hinitial, hx', hy', hrows]
      · refine .inl ⟨.ok (), ⟨child₂, some (order.apply x₂ rows, 0)⟩, x₂, y₂, ?_, ?_, h₂⟩
        · simp only [Aggregation.start, hx, hinitial, hx', hrows]
        · simp only [Aggregation.start, hy, hinitial, hy', hrows, Arrangement.seen, hsee h₂]
    · refine .inr ⟨e, ⟨child₂, results⟩, x₂, ?_, he⟩
      simp only [Aggregation.start, hx, hinitial, hx']
  · refine .inr ⟨e, ⟨child₁, results⟩, x₁, ?_, he⟩
    simp only [Aggregation.start, hx]

end Lockstep

/-! ## Plans -/

/-- **Opening a plan keeps step, and closing it does the same in both worlds**, if its aggregations
list their groups as they do in the first one. -/
theorem Plan.openings_inStep (L : Lockstep V W) {see : W → V}
    (hsee : ∀ {x y}, L.Rel x y → see y = x) (p : Plan) (orders : p.Orders V) :
    L.Openings (p.cursor orders) (p.cursor (orders.seen see)) := by
  induction p with
  | rows schema list =>
    refine .lookahead (fun position x y hxy => ?_) fun position => ?_
    · exact .inl ⟨.ok (), 0, x, y, rfl, rfl, hxy⟩
    · exact ⟨list.length, [], fun _ => rfl, fun _ => rfl⟩
  | scan t => exact ⟨Lockstep.start_table t, closesAlike_table t⟩
  | filter predicate child ih => exact .lookahead (ih orders).start (ih orders).close
  | join predicate left right ihl ihr =>
    let j : Join V left.State right.State :=
      ⟨left.schema.append right.schema, predicate.test, left.cursor orders.1,
        left.finite_cursor orders.1, right.cursor orders.2, right.finite_cursor orders.2⟩
    let j' : Join W left.State right.State :=
      ⟨left.schema.append right.schema, predicate.test, left.cursor (orders.1.seen see),
        left.finite_cursor _, right.cursor (orders.2.seen see), right.finite_cursor _⟩
    have hstart : L.Keeps j.start j'.start := (ihl orders.1).start_join (ihr orders.2)
    exact .lookahead hstart (.join (ihl orders.1).close (ihr orders.2).close)
  | aggregate a child ih =>
    exact .lookahead ((ih orders.2).start_aggregation (child.cursors_inStep L orders.2 _)
      (child.finite_cursor orders.2) (child.finite_cursor _) a hsee orders.1)
      (ih orders.2).close.aggregation

end RowStore
