import Mathlib.Data.List.TakeWhile
import RowStore.Proofs.Pool.Sweep

/-!
# The choice of a victim

`Clock.evict` sweeps the dial, for two rounds at most, and clears marks as it goes.  Which frame it
takes and which marks it clears can be said without a sweep, from what the dial looks like
beforehand.  The frames that can go are listed in the order in which the hand comes by
(`Clock.candidates`).  The victim is the first of the list without a mark, or, if all are marked,
the first of the list (`Clock.victim?`), and the marks that are cleared are those in front of the
first candidate without a mark (`Clock.spared`), which are all if there is none.

This holds for any clock that is well formed, and so for all that come to be by tracking, touching,
removing and evicting frames (`Clock.ofChanges_evict`).
-/

namespace RowStore.Clock

variable {c : Clock} {evictable : Nat → Bool}

/-! ## Candidates -/

/-- All frames, in the order in which the hand comes by. -/
def round (c : Clock) : List Nat :=
  (List.range c.capacity).map fun steps => (c.hand + steps) % c.capacity

/-- The frames that can go, in the order in which the hand comes by. -/
def candidates (c : Clock) (evictable : Nat → Bool) : List Nat :=
  c.round.filter (c.eligible evictable)

/-- The first candidate without a mark, or else the first candidate. -/
def victim? (c : Clock) (evictable : Nat → Bool) : Option Nat :=
  ((c.candidates evictable).find? fun frame => !c.references frame).or
    (c.candidates evictable).head?

/-- The candidates in front of the first one without a mark. -/
def spared (c : Clock) (evictable : Nat → Bool) : List Nat :=
  (c.candidates evictable).takeWhile c.references

lemma mem_round (hhand : c.hand < c.capacity) {frame : Nat} :
    frame ∈ c.round ↔ frame < c.capacity := by
  rw [round, List.mem_map]
  constructor
  · rintro ⟨steps, -, rfl⟩
    exact Nat.mod_lt _ (by omega)
  · intro h
    exact ⟨c.offset frame, List.mem_range.2 (offset_lt hhand), add_offset_mod hhand h⟩

lemma pairwise_round (hhand : c.hand < c.capacity) :
    c.round.Pairwise fun f g => c.offset f < c.offset g := by
  rw [round, List.pairwise_map]
  refine List.pairwise_lt_range.imp_of_mem fun {j k} hj hk hlt => ?_
  rwa [offset_add_mod hhand (List.mem_range.1 hj), offset_add_mod hhand (List.mem_range.1 hk)]

lemma mem_candidates (hhand : c.hand < c.capacity) {frame : Nat} :
    frame ∈ c.candidates evictable ↔ c.eligible evictable frame = true := by
  rw [candidates, List.mem_filter, mem_round hhand]
  exact ⟨fun h => h.2, fun h => ⟨lt_capacity_of_eligible h, h⟩⟩

/-- The candidates in front of one are those that the hand comes by first. -/
lemma exists_candidates_eq (hhand : c.hand < c.capacity) {frame : Nat}
    (h : c.eligible evictable frame = true) :
    ∃ before behind, c.candidates evictable = before ++ frame :: behind ∧
      ∀ f, f ∈ before ↔ c.eligible evictable f = true ∧ c.offset f < c.offset frame := by
  obtain ⟨before, behind, heq⟩ := List.append_of_mem ((mem_candidates hhand).2 h)
  refine ⟨before, behind, heq, fun f => ?_⟩
  have hpairwise := (pairwise_round hhand).filter (c.eligible evictable)
  rw [← candidates, heq, List.pairwise_append, List.pairwise_cons] at hpairwise
  obtain ⟨-, ⟨hbehind, -⟩, hbefore⟩ := hpairwise
  have hmem : f ∈ before ++ frame :: behind ↔ c.eligible evictable f = true := by
    rw [← heq, mem_candidates hhand]
  constructor
  · intro hf
    exact ⟨hmem.1 (List.mem_append_left _ hf), hbefore f hf frame List.mem_cons_self⟩
  · rintro ⟨hel, hlt⟩
    rcases List.mem_append.1 (hmem.2 hel) with hf | hf
    · exact hf
    · rcases List.mem_cons.1 hf with rfl | hf
      · exact absurd hlt (Nat.lt_irrefl _)
      · exact absurd hlt (Nat.lt_asymm (hbehind f hf))

/-! ## The victim -/

namespace Evicts

variable {victim : Nat} {after : Clock}

/-- If the victim has no mark, the candidates in front of it are those that the hand comes by
first, and they are marked. -/
lemma exists_candidates_eq_of_unmarked (hev : c.Evicts evictable victim after)
    (hhand : c.hand < c.capacity) (hv : c.references victim = false) :
    ∃ before behind, c.candidates evictable = before ++ victim :: behind ∧
      (∀ f ∈ before, c.references f = true) ∧
      ∀ f, f ∈ before ↔ c.eligible evictable f = true ∧ c.offset f < c.offset victim := by
  obtain ⟨before, behind, heq, hbefore⟩ := exists_candidates_eq hhand hev.eligible
  refine ⟨before, behind, heq, fun f hf => ?_, hbefore⟩
  obtain ⟨hel, hlt⟩ := (hbefore f).1 hf
  by_contra hr
  have hle := hev.first_unmarked hv f hel (by simpa using hr)
  omega

lemma victim?_eq (hev : c.Evicts evictable victim after) (hhand : c.hand < c.capacity) :
    c.victim? evictable = some victim := by
  rw [victim?]
  cases hv : c.references victim with
  | false =>
    obtain ⟨before, behind, heq, hmarked, -⟩ := hev.exists_candidates_eq_of_unmarked hhand hv
    have hfind : (c.candidates evictable).find? (fun f => !c.references f) = some victim := by
      rw [List.find?_eq_some_iff_append]
      refine ⟨by rw [hv]; rfl, before, behind, heq, fun f hf => ?_⟩
      rw [hmarked f hf]
      rfl
    rw [hfind, Option.some_or]
  | true =>
    have hfirst := hev.first_marked hv
    have hfind : (c.candidates evictable).find? (fun f => !c.references f) = none := by
      rw [List.find?_eq_none]
      intro f hf
      rw [(hfirst f ((mem_candidates hhand).1 hf)).1]
      decide
    obtain ⟨before, behind, heq, hbefore⟩ := exists_candidates_eq hhand hev.eligible
    have hnil : before = [] := by
      rw [List.eq_nil_iff_forall_not_mem]
      intro f hf
      obtain ⟨hel, hlt⟩ := (hbefore f).1 hf
      exact absurd hlt (Nat.not_lt.2 (hfirst f hel).2)
    rw [hfind, Option.none_or, heq, hnil]
    rfl

lemma mem_spared (hev : c.Evicts evictable victim after) (hhand : c.hand < c.capacity)
    {frame : Nat} : frame ∈ c.spared evictable ↔ c.eligible evictable frame = true ∧
      (c.references victim = true ∨ c.offset frame < c.offset victim) := by
  rw [spared]
  cases hv : c.references victim with
  | false =>
    obtain ⟨before, behind, heq, hmarked, hbefore⟩ :=
      hev.exists_candidates_eq_of_unmarked hhand hv
    have hstop : (victim :: behind).takeWhile c.references = [] := by
      rw [List.takeWhile_cons, hv]
      rfl
    rw [heq, List.takeWhile_append_of_pos hmarked, hstop, List.append_nil, hbefore]
    simp
  | true =>
    have hall : (c.candidates evictable).takeWhile c.references = c.candidates evictable := by
      rw [List.takeWhile_eq_self_iff]
      exact fun f hf => (hev.first_marked hv f ((mem_candidates hhand).1 hf)).1
    rw [hall, mem_candidates hhand]
    simp

lemma references_eq (hev : c.Evicts evictable victim after) (hhand : c.hand < c.capacity)
    (frame : Nat) :
    after.references frame = (c.references frame && decide (frame ∉ c.spared evictable)) := by
  rcases Nat.lt_or_ge frame c.capacity with hlt | hge
  · rw [hev.references frame hlt]
    simp only [hev.mem_spared hhand, decide_not, Bool.decide_and, Bool.decide_or,
      Bool.decide_eq_true]
    by_cases hf : frame = victim
    · subst hf
      rw [hev.eligible]
      cases c.references frame <;> simp
    · simp [hf]
  · rw [references_of_le hge, references_of_le (hev.capacity ▸ hge), Bool.false_and]

end Evicts

/-- What the clock is after it gave a frame up. -/
structure GivesUp (c : Clock) (evictable : Nat → Bool) (victim : Nat) (after : Clock) : Prop where
  tracked_eq : after.tracked = c.tracked.erase victim
  size_eq : after.size + 1 = c.size
  capacity_eq : after.capacity = c.capacity
  hand_eq : after.hand = (victim + 1) % c.capacity
  references_eq : ∀ frame,
    after.references frame = (c.references frame && decide (frame ∉ c.spared evictable))

lemma Evicts.givesUp {victim : Nat} {after : Clock} (hev : c.Evicts evictable victim after)
    (hc : c.Valid) : c.GivesUp evictable victim after where
  tracked_eq := by
    ext frame
    simp [hev.tracks, and_comm]
  size_eq := by
    have hel := hev.eligible
    rw [Clock.eligible, Bool.and_eq_true] at hel
    have hpos := hc.size_pos hel.1
    rw [hev.size]
    omega
  capacity_eq := hev.capacity
  hand_eq := hev.hand
  references_eq := hev.references_eq (hc.hand_lt_of_eligible hev.eligible)

/-- What the clock does when it is asked for a frame that can go. -/
structure Chooses (c : Clock) (evictable : Nat → Bool) : Prop where
  answer_eq : (c.evict evictable).1 = c.victim? evictable
  none_iff : (c.evict evictable).1 = none ↔ ∀ frame ∈ c.tracked, evictable frame = false
  unchanged : (c.evict evictable).1 = none → (c.evict evictable).2 = c
  givesUp : ∀ victim, (c.evict evictable).1 = some victim →
    c.GivesUp evictable victim (c.evict evictable).2

lemma eligible_eq_false_iff :
    (∀ frame, c.eligible evictable frame = false) ↔
      ∀ frame ∈ c.tracked, evictable frame = false := by
  refine forall_congr' fun frame => ?_
  rw [mem_tracked, eligible, Bool.and_eq_false_imp]

lemma Valid.chooses (hc : c.Valid) (evictable : Nat → Bool) : c.Chooses evictable := by
  obtain ⟨hnone, hevict⟩ | ⟨victim, after, hevict, hev⟩ := evict_cases hc evictable
  · have hcandidates : c.candidates evictable = [] := by
      rw [candidates, List.filter_eq_nil_iff]
      exact fun frame _ => by simp [hnone frame]
    refine ⟨?_, ?_, ?_, ?_⟩ <;> rw [hevict]
    · rw [victim?, hcandidates]
      rfl
    · exact ⟨fun _ => eligible_eq_false_iff.1 hnone, fun _ => rfl⟩
    · exact fun _ => rfl
    · exact fun _ hsome => by cases hsome
  · refine ⟨?_, ?_, ?_, ?_⟩ <;> rw [hevict]
    · exact (hev.victim?_eq (hc.hand_lt_of_eligible hev.eligible)).symm
    · refine ⟨fun hnone => (by cases hnone), fun hnone => ?_⟩
      have hel := eligible_eq_false_iff.2 hnone victim
      rw [hev.eligible] at hel
      cases hel
    · exact fun hnone => by cases hnone
    · intro victim' hsome
      obtain rfl := Option.some.inj hsome
      exact hev.givesUp hc

/-! ## Histories -/

/-- A change of a clock. -/
inductive Change where
  | insert (frame : Nat)
  | touch (frame : Nat)
  | remove (frame : Nat)
  | evict (evictable : Nat → Bool)

/-- The clock after a change. -/
def change (c : Clock) : Change → Clock
  | .insert frame => c.insert frame
  | .touch frame => c.touch frame
  | .remove frame => c.remove frame
  | .evict evictable => (c.evict evictable).2

/-- The clock with a number of frames after several changes. -/
def ofChanges (n : Nat) (changes : List Change) : Clock := changes.foldl change (ofCapacity n)

lemma Valid.change (hc : c.Valid) (ch : Change) :
    (c.change ch).Valid ∧ (c.change ch).capacity = c.capacity := by
  cases ch with
  | insert frame => exact ⟨hc.insert frame, capacity_insert c frame⟩
  | touch frame => exact ⟨hc.touch frame, capacity_touch c frame⟩
  | remove frame => exact ⟨hc.remove frame, capacity_remove c frame⟩
  | evict evictable =>
    obtain ⟨-, hevict⟩ | ⟨victim, after, hevict, hev⟩ := evict_cases hc evictable <;>
      rw [Clock.change, hevict]
    · exact ⟨hc, rfl⟩
    · exact ⟨hev.valid hc, hev.capacity⟩

lemma valid_ofChanges (n : Nat) (changes : List Change) :
    (ofChanges n changes).Valid ∧ (ofChanges n changes).capacity = n := by
  induction changes using List.reverseRecOn with
  | nil => exact ⟨valid_ofCapacity n, Array.size_replicate⟩
  | append_singleton changes ch ih =>
    rw [ofChanges, List.foldl_concat]
    obtain ⟨hvalid, hcapacity⟩ := ih.1.change ch
    exact ⟨hvalid, hcapacity.trans ih.2⟩

/-- **The clock chooses its victims in the order of the hand, and gives second chances.**  However
many frames there are, and whatever was tracked, touched, removed and evicted, the hand points to
the dial, unless that is empty, and the size is the number of tracked frames.  Asked for a frame
that the caller allows to go, the clock has none exactly if no such frame is tracked, and then
nothing changes.  Otherwise it gives up the first candidate without a mark, or the first one if all
are marked, and clears the marks of the candidates in front of the first one without a mark. -/
theorem ofChanges_evict (n : Nat) (changes : List Change) :
    (ofChanges n changes).capacity = n ∧ (0 < n → (ofChanges n changes).hand < n) ∧
      (ofChanges n changes).size = (ofChanges n changes).tracked.card ∧
      ∀ evictable, (ofChanges n changes).Chooses evictable := by
  obtain ⟨hvalid, hcapacity⟩ := valid_ofChanges n changes
  refine ⟨hcapacity, fun hn => ?_, hvalid.size_eq, hvalid.chooses⟩
  have hhand := hvalid.hand_lt (hcapacity.symm ▸ hn)
  rwa [hcapacity] at hhand

/-- After the first frame was given up all marks are gone, and one that is touched again is passed
over. -/
example : (ofChanges 3 [.insert 0, .insert 1, .insert 2, .evict fun _ => true, .touch 1]).victim?
    (fun _ => true) = some 2 := by decide

end RowStore.Clock
