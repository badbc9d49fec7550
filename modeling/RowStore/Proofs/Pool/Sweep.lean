import Mathlib.Logic.Function.Iterate
import Mathlib.Tactic
import RowStore.Pool.Clock

/-!
# The sweep of the clock

`Clock.evict` looks at frames from the hand on, for at most two rounds.  This file says what it
finds.  A frame is *eligible* if it is tracked and the caller allows it to go.  If no frame is
eligible, the hand comes back to where it was and nothing has changed (`evict_of_none`).  Otherwise
there is a victim (`exists_evict_eq`): the first eligible frame without a mark, or, if all eligible
frames are marked, the first of them.  Nothing else can happen (`evict_cases`).

Two rounds are enough because of what the hand does on the way.  `Clock.pass` is one step of the
hand that takes no victim: it clears the mark of an eligible frame and leaves everything else alone.
A sweep that meets no victim in its first steps is a sweep from the clock after as many passes
(`sweep_add`), and after a full round of passes no eligible frame is marked any more
(`references_iterate_pass`), so the second round stops at the first eligible frame.

Positions are compared by `Clock.offset`, the number of steps from the hand to a frame.
-/

namespace RowStore.Clock

variable {c : Clock} {evictable : Nat → Bool}

/-! ## Looking at the dial after an operation -/

/-- Whether a frame is tracked and may go. -/
def eligible (c : Clock) (evictable : Nat → Bool) (frame : Nat) : Bool :=
  c.tracks frame && evictable frame

lemma tracks_of_getElem? {frame : Nat} {notch : Notch} (h : c.dial[frame]? = some notch) :
    c.tracks frame = notch.tracked := by
  simp [tracks, h]

lemma references_of_getElem? {frame : Nat} {notch : Notch} (h : c.dial[frame]? = some notch) :
    c.references frame = notch.referenced := by
  simp [references, h]

/-- Only frames on the dial are tracked. -/
lemma lt_capacity_of_tracks {frame : Nat} (h : c.tracks frame = true) : frame < c.capacity := by
  by_contra hge
  have hnone : c.dial[frame]? = none := Array.getElem?_eq_none (Nat.le_of_not_lt hge)
  simp [tracks, hnone] at h

lemma references_of_le {frame : Nat} (h : c.capacity ≤ frame) : c.references frame = false := by
  have hnone : c.dial[frame]? = none := Array.getElem?_eq_none h
  simp [references, hnone]

lemma lt_capacity_of_eligible {frame : Nat} (h : c.eligible evictable frame = true) :
    frame < c.capacity := by
  rw [eligible, Bool.and_eq_true] at h
  exact lt_capacity_of_tracks h.1

@[simp] lemma capacity_insert (c : Clock) (frame : Nat) :
    (c.insert frame).capacity = c.capacity := by
  unfold insert
  split <;> simp [capacity]

@[simp] lemma capacity_touch (c : Clock) (frame : Nat) : (c.touch frame).capacity = c.capacity := by
  simp [capacity, touch]

@[simp] lemma capacity_remove (c : Clock) (frame : Nat) :
    (c.remove frame).capacity = c.capacity := by
  unfold remove
  split <;> simp [capacity]

@[simp] lemma hand_insert (c : Clock) (frame : Nat) : (c.insert frame).hand = c.hand := by
  unfold insert
  split <;> rfl

@[simp] lemma hand_remove (c : Clock) (frame : Nat) : (c.remove frame).hand = c.hand := by
  unfold remove
  split <;> rfl

lemma insert_of_lt {frame : Nat} (h : frame < c.capacity) :
    c.insert frame =
      { c with
        dial := c.dial.setIfInBounds frame ⟨true, true⟩
        size := if c.tracks frame then c.size else c.size + 1 } := by
  have hget : c.dial[frame]? = some c.dial[frame] := Array.getElem?_eq_getElem h
  rw [insert, hget, tracks_of_getElem? hget]

lemma tracks_insert {frame : Nat} (h : frame < c.capacity) (other : Nat) :
    (c.insert frame).tracks other = (decide (other = frame) || c.tracks other) := by
  have hsize : frame < c.dial.size := h
  by_cases hof : other = frame
  · subst hof
    simp [insert_of_lt h, tracks, hsize]
  · have hne : frame ≠ other := fun e => hof e.symm
    simp [insert_of_lt h, tracks, hof, hne]

lemma references_insert {frame : Nat} (h : frame < c.capacity) (other : Nat) :
    (c.insert frame).references other = (decide (other = frame) || c.references other) := by
  have hsize : frame < c.dial.size := h
  by_cases hof : other = frame
  · subst hof
    simp [insert_of_lt h, references, hsize]
  · have hne : frame ≠ other := fun e => hof e.symm
    simp [insert_of_lt h, references, hof, hne]

@[simp] lemma tracks_touch (c : Clock) (frame other : Nat) :
    (c.touch frame).tracks other = c.tracks other := by
  by_cases hof : frame = other
  · subst hof
    cases hget : c.dial[frame]? <;> simp [touch, tracks, Array.getElem?_modify, hget]
  · simp [touch, tracks, Array.getElem?_modify, hof]

lemma references_touch {frame : Nat} (h : frame < c.capacity) (other : Nat) :
    (c.touch frame).references other = (decide (other = frame) || c.references other) := by
  by_cases hof : other = frame
  · subst hof
    have hget : c.dial[other]? = some c.dial[other] := Array.getElem?_eq_getElem h
    simp [touch, references, Array.getElem?_modify, hget]
  · have hne : frame ≠ other := fun e => hof e.symm
    simp [touch, references, Array.getElem?_modify, hof, hne]

lemma tracks_remove (c : Clock) (frame other : Nat) :
    (c.remove frame).tracks other = (c.tracks other && decide (other ≠ frame)) := by
  by_cases ht : c.tracks frame
  · have hlt : frame < c.dial.size := lt_capacity_of_tracks ht
    by_cases hof : other = frame
    · subst hof
      rw [remove, if_pos ht]
      simp [tracks, hlt]
    · have hne : frame ≠ other := fun e => hof e.symm
      rw [remove, if_pos ht]
      simp [tracks, hof, hne]
  · rw [remove, if_neg ht]
    by_cases hof : other = frame
    · subst hof
      simpa using ht
    · simp [hof]

lemma references_remove {frame : Nat} (h : c.tracks frame = true) (other : Nat) :
    (c.remove frame).references other = (c.references other && decide (other ≠ frame)) := by
  have hlt : frame < c.dial.size := lt_capacity_of_tracks h
  by_cases hof : other = frame
  · subst hof
    rw [remove, if_pos h]
    simp [references, hlt]
  · have hne : frame ≠ other := fun e => hof e.symm
    rw [remove, if_pos h]
    simp [references, hof, hne]

lemma size_insert {frame : Nat} (h : frame < c.capacity) (hnew : c.tracks frame = false) :
    (c.insert frame).size = c.size + 1 := by
  simp [insert_of_lt h, hnew]

lemma size_remove {frame : Nat} (h : c.tracks frame = true) :
    (c.remove frame).size = c.size - 1 := by
  simp [remove, h]

/-! ## Steps of the hand -/

/-- One step of the hand that takes no victim. -/
def pass (evictable : Nat → Bool) (c : Clock) : Clock :=
  { c with
    hand := c.nextHand
    dial := if c.eligible evictable c.hand then c.dial.setIfInBounds c.hand ⟨true, false⟩
      else c.dial }

/-- One step of the hand that takes the frame it points to. -/
def take (c : Clock) : Clock :=
  { c with
    hand := c.nextHand
    dial := c.dial.setIfInBounds c.hand ⟨false, false⟩
    size := c.size - 1 }

@[simp] lemma capacity_pass (evictable : Nat → Bool) (c : Clock) :
    (c.pass evictable).capacity = c.capacity := by
  unfold pass capacity
  split <;> simp

@[simp] lemma tracks_pass (evictable : Nat → Bool) (c : Clock) (frame : Nat) :
    (c.pass evictable).tracks frame = c.tracks frame := by
  by_cases he : c.eligible evictable c.hand
  · have ht : c.tracks c.hand = true := by
      rw [eligible, Bool.and_eq_true] at he
      exact he.1
    have hlt : c.hand < c.dial.size := lt_capacity_of_tracks ht
    by_cases hf : frame = c.hand
    · subst hf
      simp [pass, tracks, he, hlt, ← ht]
    · have hne : c.hand ≠ frame := fun e => hf e.symm
      simp [pass, tracks, he, hne]
  · simp [pass, tracks, he]

lemma references_pass (evictable : Nat → Bool) (c : Clock) (frame : Nat) :
    (c.pass evictable).references frame =
      (c.references frame && !(decide (frame = c.hand) && c.eligible evictable frame)) := by
  by_cases hf : frame = c.hand
  · subst hf
    by_cases he : c.eligible evictable c.hand
    · have hlt : c.hand < c.dial.size := lt_capacity_of_eligible he
      simp [pass, references, he, hlt]
    · simp [pass, references, he]
  · have hne : c.hand ≠ frame := fun e => hf e.symm
    by_cases he : c.eligible evictable c.hand <;> simp [pass, references, he, hne, hf]

/-- Whether the hand takes the frame it points to. -/
def stops (c : Clock) (evictable : Nat → Bool) (frame : Nat) : Bool :=
  c.eligible evictable frame && !c.references frame

lemma sweep_succ (evictable : Nat → Bool) (steps : Nat) (h : c.hand < c.capacity) :
    sweep evictable (steps + 1) c =
      if c.stops evictable c.hand then (some c.hand, c.take)
      else sweep evictable steps (c.pass evictable) := by
  have hget : c.dial[c.hand]? = some c.dial[c.hand] := Array.getElem?_eq_getElem h
  have ht := tracks_of_getElem? hget
  have hr := references_of_getElem? hget
  rw [sweep, hget]
  simp only [stops, eligible, pass, ht, hr]
  cases htracked : (c.dial[c.hand]).tracked <;> cases hallowed : evictable c.hand <;>
    cases hmarked : (c.dial[c.hand]).referenced <;> simp [take]

/-! ## Several steps -/

/-- How many steps the hand is away from a frame. -/
def offset (c : Clock) (frame : Nat) : Nat := (frame + (c.capacity - c.hand)) % c.capacity

lemma offset_eq {frame : Nat} (hhand : c.hand < c.capacity) (h : frame < c.capacity) :
    c.offset frame = if c.hand ≤ frame then frame - c.hand else frame + c.capacity - c.hand := by
  unfold offset
  split
  · have hsum : frame + (c.capacity - c.hand) = frame - c.hand + c.capacity := by omega
    rw [hsum, Nat.add_mod_right, Nat.mod_eq_of_lt (by omega)]
  · rw [Nat.mod_eq_of_lt (by omega)]
    omega

lemma offset_lt {frame : Nat} (hhand : c.hand < c.capacity) : c.offset frame < c.capacity :=
  Nat.mod_lt _ (by omega)

/-- The frame at an offset from the hand. -/
lemma add_offset_mod {frame : Nat} (hhand : c.hand < c.capacity) (h : frame < c.capacity) :
    (c.hand + c.offset frame) % c.capacity = frame := by
  rw [offset_eq hhand h]
  split
  · rw [Nat.mod_eq_of_lt (by omega)]
    omega
  · have hsum : c.hand + (frame + c.capacity - c.hand) = frame + c.capacity := by omega
    rw [hsum, Nat.add_mod_right, Nat.mod_eq_of_lt h]

lemma offset_add_mod {k : Nat} (hhand : c.hand < c.capacity) (h : k < c.capacity) :
    c.offset ((c.hand + k) % c.capacity) = k := by
  have hlt : (c.hand + k) % c.capacity < c.capacity := Nat.mod_lt _ (by omega)
  rw [offset_eq hhand hlt]
  rcases Nat.lt_or_ge (c.hand + k) c.capacity with hk | hk
  · rw [Nat.mod_eq_of_lt hk, if_pos (by omega)]
    omega
  · have hsum : c.hand + k = (c.hand + k - c.capacity) + c.capacity := by omega
    rw [hsum, Nat.add_mod_right, Nat.mod_eq_of_lt (by omega), if_neg (by omega)]
    omega

@[simp] lemma capacity_iterate_pass (evictable : Nat → Bool) (k : Nat) (c : Clock) :
    ((pass evictable)^[k] c).capacity = c.capacity := by
  induction k generalizing c with
  | zero => rfl
  | succ k ih => rw [Function.iterate_succ_apply, ih, capacity_pass]

@[simp] lemma size_iterate_pass (k : Nat) (c : Clock) :
    ((pass evictable)^[k] c).size = c.size := by
  induction k generalizing c with
  | zero => rfl
  | succ k ih => rw [Function.iterate_succ_apply, ih]; rfl

@[simp] lemma tracks_iterate_pass (k : Nat) (c : Clock) (frame : Nat) :
    ((pass evictable)^[k] c).tracks frame = c.tracks frame := by
  induction k generalizing c with
  | zero => rfl
  | succ k ih => rw [Function.iterate_succ_apply, ih, tracks_pass]

@[simp] lemma eligible_iterate_pass (k : Nat) (c : Clock) (frame : Nat) :
    ((pass evictable)^[k] c).eligible evictable frame = c.eligible evictable frame := by
  simp [eligible]

lemma hand_iterate_pass (hhand : c.hand < c.capacity) (k : Nat) :
    ((pass evictable)^[k] c).hand = (c.hand + k) % c.capacity := by
  induction k with
  | zero => exact (Nat.mod_eq_of_lt hhand).symm
  | succ k ih =>
    rw [Function.iterate_succ_apply']
    show (((pass evictable)^[k] c).hand + 1) % ((pass evictable)^[k] c).capacity = _
    rw [ih, capacity_iterate_pass, Nat.mod_add_mod, Nat.add_assoc]

/-- In its first round the hand clears the marks of the eligible frames that it has gone past. -/
lemma references_iterate_pass (hhand : c.hand < c.capacity) {k : Nat} (hk : k ≤ c.capacity)
    {frame : Nat} (h : frame < c.capacity) :
    ((pass evictable)^[k] c).references frame =
      (c.references frame && !(decide (c.offset frame < k) && c.eligible evictable frame)) := by
  induction k with
  | zero => simp
  | succ k ih =>
    have hk' : k < c.capacity := by omega
    have hpos : (frame = (c.hand + k) % c.capacity) ↔ c.offset frame = k := by
      constructor
      · rintro rfl
        exact offset_add_mod hhand hk'
      · rintro rfl
        exact (add_offset_mod hhand h).symm
    have hsucc : c.offset frame < k + 1 ↔ c.offset frame < k ∨ c.offset frame = k := by omega
    rw [Function.iterate_succ_apply', references_pass, ih (by omega), hand_iterate_pass hhand,
      eligible_iterate_pass]
    simp only [hpos, hsucc, Bool.decide_or]
    cases c.references frame <;> cases c.eligible evictable frame <;> simp

/-- A sweep that stops at none of the first frames goes on from where these leave it. -/
lemma sweep_add (hhand : c.hand < c.capacity) (steps : Nat) {k : Nat}
    (h : ∀ j < k, ((pass evictable)^[j] c).stops evictable ((pass evictable)^[j] c).hand = false) :
    sweep evictable (k + steps) c = sweep evictable steps ((pass evictable)^[k] c) := by
  induction k generalizing c with
  | zero => simp
  | succ k ih =>
    have hfirst : c.stops evictable c.hand = false := h 0 (Nat.succ_pos k)
    have hnext : (c.pass evictable).hand < (c.pass evictable).capacity := by
      rw [capacity_pass]
      exact Nat.mod_lt _ (by omega)
    rw [Nat.succ_add, sweep_succ evictable _ hhand, hfirst, if_neg Bool.false_ne_true,
      Function.iterate_succ_apply]
    refine ih hnext fun j hj => ?_
    have := h (j + 1) (Nat.succ_lt_succ hj)
    rwa [Function.iterate_succ_apply] at this

/-! ## Well-formed clocks -/

/-- The frames that are tracked. -/
def tracked (c : Clock) : Finset Nat := (Finset.range c.capacity).filter fun f => c.tracks f = true

@[simp] lemma mem_tracked {frame : Nat} : frame ∈ c.tracked ↔ c.tracks frame = true := by
  rw [tracked, Finset.mem_filter, Finset.mem_range]
  exact ⟨fun h => h.2, fun h => ⟨lt_capacity_of_tracks h, h⟩⟩

/-- The hand points to the dial, unless that is empty, and the size counts the tracked frames. -/
structure Valid (c : Clock) : Prop where
  hand_lt : 0 < c.capacity → c.hand < c.capacity
  size_eq : c.size = c.tracked.card

lemma tracks_ofCapacity (n frame : Nat) : (ofCapacity n).tracks frame = false := by
  by_cases h : frame < n <;> simp [ofCapacity, tracks, h]

lemma references_ofCapacity (n frame : Nat) : (ofCapacity n).references frame = false := by
  by_cases h : frame < n <;> simp [ofCapacity, references, h]

lemma valid_ofCapacity (n : Nat) : (ofCapacity n).Valid where
  hand_lt h := h
  size_eq := by
    have hempty : (ofCapacity n).tracked = ∅ := by
      ext frame
      simp [tracks_ofCapacity]
    rw [hempty]
    rfl

lemma Valid.insert (hc : c.Valid) (frame : Nat) : (c.insert frame).Valid := by
  rcases Nat.lt_or_ge frame c.capacity with hlt | hge
  · refine ⟨fun h => ?_, ?_⟩
    · rw [capacity_insert] at h ⊢
      rw [hand_insert]
      exact hc.hand_lt h
    · have hset : (c.insert frame).tracked = Insert.insert frame c.tracked := by
        ext other
        simp [tracks_insert hlt]
      rw [hset, insert_of_lt hlt]
      by_cases ht : c.tracks frame = true
      · simp [ht, hc.size_eq]
      · simp [ht, hc.size_eq]
  · have hnone : c.dial[frame]? = none := Array.getElem?_eq_none hge
    rw [Clock.insert, hnone]
    exact hc

lemma Valid.touch (hc : c.Valid) (frame : Nat) : (c.touch frame).Valid where
  hand_lt h := by
    rw [capacity_touch] at h ⊢
    exact hc.hand_lt h
  size_eq := by
    have hset : (c.touch frame).tracked = c.tracked := by
      ext other
      simp
    rw [hset]
    exact hc.size_eq

lemma Valid.remove (hc : c.Valid) (frame : Nat) : (c.remove frame).Valid where
  hand_lt h := by
    rw [capacity_remove] at h ⊢
    rw [hand_remove]
    exact hc.hand_lt h
  size_eq := by
    have hset : (c.remove frame).tracked = c.tracked.erase frame := by
      ext other
      simp [tracks_remove, and_comm]
    rw [hset]
    by_cases ht : c.tracks frame = true
    · rw [size_remove ht, Finset.card_erase_of_mem (mem_tracked.2 ht), hc.size_eq]
    · have hsame : c.remove frame = c := by simp [Clock.remove, ht]
      rw [hsame, Finset.erase_eq_of_notMem (by simpa using ht)]
      exact hc.size_eq

lemma Valid.size_pos (hc : c.Valid) {frame : Nat} (h : c.tracks frame = true) : 0 < c.size := by
  rw [hc.size_eq, Finset.card_pos]
  exact ⟨frame, mem_tracked.2 h⟩

lemma Valid.hand_lt_of_eligible (hc : c.Valid) {frame : Nat}
    (h : c.eligible evictable frame = true) : c.hand < c.capacity :=
  hc.hand_lt (Nat.zero_lt_of_lt (lt_capacity_of_eligible h))

/-! ## Evicting -/

/-- Without eligible frames a pass only moves the hand. -/
lemma iterate_pass_of_none (hhand : c.hand < c.capacity)
    (hnone : ∀ frame, c.eligible evictable frame = false) (k : Nat) :
    (pass evictable)^[k] c = { c with hand := (c.hand + k) % c.capacity } := by
  induction k with
  | zero => simp [Nat.mod_eq_of_lt hhand]
  | succ k ih =>
    have hel : ({ c with hand := (c.hand + k) % c.capacity } : Clock).eligible evictable
        ((c.hand + k) % c.capacity) = false := hnone _
    rw [Function.iterate_succ_apply', ih, pass, nextHand]
    simp only [hel, Bool.false_eq_true, if_false]
    show ({ c with hand := ((c.hand + k) % c.capacity + 1) % c.capacity } : Clock) = _
    rw [Nat.mod_add_mod, Nat.add_assoc]

/-- Without eligible frames nothing happens at all: the hand goes round twice and is back. -/
lemma evict_of_none (hc : c.Valid) (hnone : ∀ frame, c.eligible evictable frame = false) :
    c.evict evictable = (none, c) := by
  unfold evict
  split
  · rfl
  · next hsize =>
    have hcap : 0 < c.capacity := by
      by_contra h0
      have hsize0 : c.size = 0 := by
        rw [hc.size_eq, Finset.card_eq_zero, tracked, Nat.eq_zero_of_not_pos h0]
        rfl
      exact hsize hsize0
    have hhand := hc.hand_lt hcap
    have hstop : ∀ j < 2 * c.capacity, ((pass evictable)^[j] c).stops evictable
        ((pass evictable)^[j] c).hand = false := by
      intro j _
      rw [stops, eligible_iterate_pass, hnone, Bool.false_and]
    have hsweep := sweep_add hhand 0 hstop
    rw [Nat.add_zero] at hsweep
    rw [hsweep, iterate_pass_of_none hhand hnone, sweep, Nat.add_mul_mod_self_right,
      Nat.mod_eq_of_lt hhand]

/-- What the clock is after it gave up a frame.  If the victim was not marked, the marks that are
cleared are those of the eligible frames between the hand and the victim; if it was, they are those
of all eligible frames.  In the first case the victim is the first eligible frame without a mark,
in the second the first eligible frame, all of which are marked. -/
structure Evicts (c : Clock) (evictable : Nat → Bool) (victim : Nat) (after : Clock) : Prop where
  eligible : c.eligible evictable victim = true
  first_unmarked : c.references victim = false → ∀ frame, c.eligible evictable frame = true →
    c.references frame = false → c.offset victim ≤ c.offset frame
  first_marked : c.references victim = true → ∀ frame, c.eligible evictable frame = true →
    c.references frame = true ∧ c.offset victim ≤ c.offset frame
  capacity : after.capacity = c.capacity
  hand : after.hand = (victim + 1) % c.capacity
  size : after.size = c.size - 1
  tracks : ∀ frame, after.tracks frame = (c.tracks frame && decide (frame ≠ victim))
  references : ∀ frame < c.capacity, after.references frame =
    (c.references frame && decide (frame ≠ victim) && !(c.eligible evictable frame &&
      (c.references victim || decide (c.offset frame < c.offset victim))))

lemma tracks_take (hhand : c.hand < c.capacity) (frame : Nat) :
    c.take.tracks frame = (c.tracks frame && decide (frame ≠ c.hand)) := by
  have hlt : c.hand < c.dial.size := hhand
  by_cases hf : frame = c.hand
  · subst hf
    simp [take, tracks, hlt]
  · have hne : c.hand ≠ frame := fun e => hf e.symm
    simp [take, tracks, hf, hne]

lemma references_take (hhand : c.hand < c.capacity) (frame : Nat) :
    c.take.references frame = (c.references frame && decide (frame ≠ c.hand)) := by
  have hlt : c.hand < c.dial.size := hhand
  by_cases hf : frame = c.hand
  · subst hf
    simp [take, references, hlt]
  · have hne : c.hand ≠ frame := fun e => hf e.symm
    simp [take, references, hf, hne]

/-- Among the frames with a property there is one that the hand reaches first. -/
lemma exists_first (P : Nat → Prop) (hlt : ∀ frame, P frame → frame < c.capacity)
    (h : ∃ frame, P frame) :
    ∃ first, P first ∧ ∀ frame, P frame → c.offset first ≤ c.offset frame := by
  classical
  obtain ⟨frame, hframe⟩ := h
  have hne : ((Finset.range c.capacity).filter P).Nonempty :=
    ⟨frame, Finset.mem_filter.2 ⟨Finset.mem_range.2 (hlt frame hframe), hframe⟩⟩
  obtain ⟨first, hfirst, hmin⟩ := Finset.exists_min_image _ c.offset hne
  refine ⟨first, (Finset.mem_filter.1 hfirst).2, fun other hother => hmin other ?_⟩
  exact Finset.mem_filter.2 ⟨Finset.mem_range.2 (hlt other hother), hother⟩

/-- A sweep takes the first eligible frame without a mark, if it goes that far. -/
lemma sweep_of_unmarked (hhand : c.hand < c.capacity) {victim steps : Nat}
    (hstop : c.stops evictable victim = true)
    (hfirst : ∀ frame, c.stops evictable frame = true → c.offset victim ≤ c.offset frame)
    (hsteps : c.offset victim < steps) :
    sweep evictable steps c =
      (some victim, ((pass evictable)^[c.offset victim] c).take) := by
  have hv : victim < c.capacity := by
    rw [stops, Bool.and_eq_true] at hstop
    exact lt_capacity_of_eligible hstop.1
  have hk : c.offset victim < c.capacity := offset_lt hhand
  have hpassed : ∀ j < c.offset victim, ((pass evictable)^[j] c).stops evictable
      ((pass evictable)^[j] c).hand = false := by
    intro j hj
    have hj' : j < c.capacity := by omega
    have hlt : (c.hand + j) % c.capacity < c.capacity := Nat.mod_lt _ (by omega)
    have hoff := offset_add_mod hhand hj'
    rw [hand_iterate_pass hhand, stops, eligible_iterate_pass,
      references_iterate_pass hhand hj'.le hlt, hoff, decide_eq_false (Nat.lt_irrefl j)]
    by_contra hs
    have hle := hfirst ((c.hand + j) % c.capacity) (by simpa [stops] using hs)
    omega
  have hhand' : ((pass evictable)^[c.offset victim] c).hand = victim := by
    rw [hand_iterate_pass hhand, add_offset_mod hhand hv]
  have hstop' : ((pass evictable)^[c.offset victim] c).stops evictable victim = true := by
    rw [stops, eligible_iterate_pass, references_iterate_pass hhand hk.le hv]
    simpa [stops] using hstop
  obtain ⟨rest, rfl⟩ : ∃ rest, steps = c.offset victim + (rest + 1) :=
    ⟨steps - c.offset victim - 1, by omega⟩
  rw [sweep_add hhand _ hpassed, sweep_succ _ _ (by rw [hhand', capacity_iterate_pass]; exact hv),
    hhand', hstop', if_pos rfl]

/-- A round is enough if there is an eligible frame without a mark. -/
lemma exists_sweep_eq (hhand : c.hand < c.capacity)
    (h : ∃ frame, c.stops evictable frame = true) (steps : Nat) (hsteps : c.capacity ≤ steps) :
    ∃ victim after, sweep evictable steps c = (some victim, after) ∧
      c.references victim = false ∧ c.Evicts evictable victim after := by
  have hlt : ∀ f, c.stops evictable f = true → f < c.capacity := by
    intro f hf
    rw [stops, Bool.and_eq_true] at hf
    exact lt_capacity_of_eligible hf.1
  obtain ⟨victim, hstop, hfirst⟩ := exists_first (fun f => c.stops evictable f = true) hlt h
  have hoff : c.offset victim < c.capacity := offset_lt hhand
  have hel : c.eligible evictable victim = true ∧ c.references victim = false := by
    simpa [stops] using hstop
  have hhand' : ((pass evictable)^[c.offset victim] c).hand = victim := by
    rw [hand_iterate_pass hhand, add_offset_mod hhand (hlt victim hstop)]
  have hlt' : ((pass evictable)^[c.offset victim] c).hand <
      ((pass evictable)^[c.offset victim] c).capacity := by
    rw [hhand', capacity_iterate_pass]
    exact hlt victim hstop
  refine ⟨victim, _, sweep_of_unmarked hhand hstop hfirst (by omega), hel.2, ?_⟩
  exact {
    eligible := hel.1
    first_unmarked := fun _ f hf hr => hfirst f (by simp [stops, hf, hr])
    first_marked := fun hmarked => by
      rw [hel.2] at hmarked
      cases hmarked
    capacity := by simpa [take, capacity] using capacity_iterate_pass evictable _ c
    hand := by
      show (((pass evictable)^[c.offset victim] c).hand + 1) % _ = _
      rw [hhand', capacity_iterate_pass]
    size := by
      show ((pass evictable)^[c.offset victim] c).size - 1 = _
      rw [size_iterate_pass]
    tracks := fun f => by rw [tracks_take hlt', tracks_iterate_pass, hhand']
    references := fun f hf => by
      rw [references_take hlt', references_iterate_pass hhand hoff.le hf, hhand', hel.2]
      cases c.references f <;> cases c.eligible evictable f <;> simp [Bool.and_comm] }

/-- After a round in which every eligible frame was marked, none is. -/
lemma references_round (hhand : c.hand < c.capacity) {frame : Nat} (h : frame < c.capacity) :
    ((pass evictable)^[c.capacity] c).references frame =
      (c.references frame && !c.eligible evictable frame) := by
  rw [references_iterate_pass hhand le_rfl h, decide_eq_true (offset_lt hhand), Bool.true_and]

/-- If every eligible frame is marked, a second round takes the first of them. -/
lemma exists_sweep_eq_of_marked (hhand : c.hand < c.capacity)
    (h : ∃ frame, c.eligible evictable frame = true)
    (hmarked : ∀ frame, c.eligible evictable frame = true → c.references frame = true) :
    ∃ victim after, sweep evictable (2 * c.capacity) c = (some victim, after) ∧
      c.Evicts evictable victim after := by
  have hround : ∀ j < c.capacity, ((pass evictable)^[j] c).stops evictable
      ((pass evictable)^[j] c).hand = false := by
    intro j hj
    have hlt : (c.hand + j) % c.capacity < c.capacity := Nat.mod_lt _ (by omega)
    rw [hand_iterate_pass hhand, stops, eligible_iterate_pass,
      references_iterate_pass hhand hj.le hlt, offset_add_mod hhand hj,
      decide_eq_false (Nat.lt_irrefl j)]
    cases he : c.eligible evictable ((c.hand + j) % c.capacity) with
    | false => rfl
    | true => simp [hmarked _ he]
  -- `d` is the clock after the first round: the hand is back and the marks in the way are gone
  set d := (pass evictable)^[c.capacity] c with hd
  have hcap : d.capacity = c.capacity := capacity_iterate_pass _ _ _
  have hdhand : d.hand = c.hand := by
    rw [hd, hand_iterate_pass hhand, Nat.add_mod_right, Nat.mod_eq_of_lt hhand]
  have hel : ∀ f, d.eligible evictable f = c.eligible evictable f := fun f => by
    rw [hd, eligible_iterate_pass]
  have hoff : ∀ f, d.offset f = c.offset f := fun f => by rw [offset, offset, hcap, hdhand]
  have hstops : ∀ f, c.eligible evictable f = true → d.stops evictable f = true := by
    intro f hf
    rw [stops, hel, hd, references_round hhand (lt_capacity_of_eligible hf), hf]
    simp
  obtain ⟨frame, hframe⟩ := h
  have hdlt : d.hand < d.capacity := by
    rw [hdhand, hcap]
    exact hhand
  obtain ⟨victim, after, hsweep, hunmarked, hev⟩ :=
    exists_sweep_eq hdlt ⟨frame, hstops frame hframe⟩ c.capacity hcap.le
  have hfirst : ∀ f, c.eligible evictable f = true → c.offset victim ≤ c.offset f := by
    intro f hf
    have hs := hstops f hf
    rw [stops, Bool.and_eq_true, Bool.not_eq_true'] at hs
    have hle := hev.first_unmarked hunmarked f hs.1 hs.2
    rwa [hoff, hoff] at hle
  have hvictim : c.eligible evictable victim = true := hel victim ▸ hev.eligible
  have hsweep' : sweep evictable (2 * c.capacity) c = (some victim, after) := by
    rw [Nat.two_mul, sweep_add hhand _ hround]
    exact hsweep
  refine ⟨victim, after, hsweep', ?_⟩
  exact {
    eligible := hvictim
    first_unmarked := fun hunmarked => by
      rw [hmarked victim hvictim] at hunmarked
      cases hunmarked
    first_marked := fun _ f hf => ⟨hmarked f hf, hfirst f hf⟩
    capacity := hev.capacity.trans hcap
    hand := by rw [hev.hand, hcap]
    size := by rw [hev.size, hd, size_iterate_pass]
    tracks := fun f => by rw [hev.tracks, hd, tracks_iterate_pass]
    references := fun f hf => by
      rw [hev.references f (hcap ▸ hf), hunmarked, hd, references_round hhand hf,
        eligible_iterate_pass, hmarked victim hvictim]
      cases c.references f <;> cases c.eligible evictable f <;> simp }

/-- If there is an eligible frame, the clock gives one up. -/
theorem exists_evict_eq (hc : c.Valid) (h : ∃ frame, c.eligible evictable frame = true) :
    ∃ victim after, c.evict evictable = (some victim, after) ∧
      c.Evicts evictable victim after := by
  obtain ⟨frame, hframe⟩ := h
  have hhand := hc.hand_lt_of_eligible hframe
  have hsize : c.size ≠ 0 := by
    have ht := hframe
    rw [eligible, Bool.and_eq_true] at ht
    exact (hc.size_pos ht.1).ne'
  rw [evict, if_neg hsize]
  by_cases hU : ∃ f, c.stops evictable f = true
  · obtain ⟨victim, after, hsweep, -, hev⟩ :=
      exists_sweep_eq hhand hU (2 * c.capacity) (by omega)
    exact ⟨victim, after, hsweep, hev⟩
  · refine exists_sweep_eq_of_marked hhand ⟨frame, hframe⟩ fun f hf => ?_
    by_contra hr
    exact hU ⟨f, by simp [stops, hf, hr]⟩

/-- All that asking for a victim can lead to. -/
theorem evict_cases (hc : c.Valid) (evictable : Nat → Bool) :
    ((∀ frame, c.eligible evictable frame = false) ∧ c.evict evictable = (none, c)) ∨
      ∃ victim after, c.evict evictable = (some victim, after) ∧
        c.Evicts evictable victim after := by
  by_cases h : ∃ frame, c.eligible evictable frame = true
  · exact .inr (exists_evict_eq hc h)
  · have hnone : ∀ frame, c.eligible evictable frame = false := fun frame => by
      simpa using fun hframe => h ⟨frame, hframe⟩
    exact .inl ⟨hnone, evict_of_none hc hnone⟩

/-- The clock stays well formed when it gives a frame up. -/
lemma Evicts.valid {victim : Nat} {after : Clock} (hev : c.Evicts evictable victim after)
    (hc : c.Valid) : after.Valid where
  hand_lt h := by
    rw [hev.hand, hev.capacity]
    exact Nat.mod_lt _ (hev.capacity ▸ h)
  size_eq := by
    have ht : c.tracks victim = true := by
      have := hev.eligible
      rw [Clock.eligible, Bool.and_eq_true] at this
      exact this.1
    have hset : after.tracked = c.tracked.erase victim := by
      ext frame
      simp [hev.tracks, and_comm]
    rw [hset, hev.size, Finset.card_erase_of_mem (mem_tracked.2 ht), hc.size_eq]

end RowStore.Clock
