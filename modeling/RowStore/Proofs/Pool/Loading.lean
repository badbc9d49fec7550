import RowStore.Proofs.Pool.Consistency

/-!
# Requests with a loader

A request for a page ends in one of four ways (`Pool.Requested`): the page is resident; or the
loader is run, and it fails, or no room can be made, or the page is put into the room that was made
for it.  Everything that is known of a request follows from this case distinction: the pool stays
sound, a page that is found afterwards was there before or is the one that was loaded, and a page
that was not resident counts as a miss.
-/

namespace RowStore.Pool

variable {α : Type} {p q : Pool α} {count : ℕ} {page : PageId} {loader : Unit → Except Error α}
  {answer : Except Error (Handle α)}

/-- There is an empty frame, or a page that may give way. -/
def HasRoom (p : Pool α) : Prop :=
  p.free ≠ [] ∨ ∃ frame r, p.residentIn? frame = some r ∧ p.isPinned frame = false

/-- The four ways in which a request can end. -/
inductive Requested (p : Pool α) (page : PageId) (loader : Unit → Except Error α) :
    Except Error (Handle α) → Pool α → Prop
  /-- The page is resident. -/
  | hit {frame : ℕ} {h : Handle α} (hresident : p.lookup page = some (frame, h)) :
    Requested p page loader (.ok h) (p.fetch page).2
  /-- The loader fails. -/
  | failed {e : Error} (habsent : p.lookup page = none) (hload : loader () = .error e) :
    Requested p page loader (.error e) p.countMiss
  /-- No room can be made. -/
  | full {content : α} (habsent : p.lookup page = none) (hload : loader () = .ok content)
    (hfull : ¬ p.HasRoom) : Requested p page loader (.error .poolFull) p.countMiss
  /-- The page is put into the room that was made for it. -/
  | loaded {content : α} {frame : ℕ} {made : Pool α} (habsent : p.lookup page = none)
    (hload : loader () = .ok content) (hmade : p.countMiss.Allocates (some frame) made) :
    Requested p page loader (.ok ⟨made.nextTicket, content⟩) (made.install frame page content).2

/-- If making room fails, there is none. -/
lemma Allocates.not_hasRoom (h : Allocates p none q) : ¬ p.HasRoom := by
  cases h with
  | full hfree hpinned =>
    rintro (hne | ⟨frame, r, hresident, hunpinned⟩)
    · exact hne hfree
    · rw [hpinned frame r hresident] at hunpinned
      cases hunpinned

lemma Sound.requested (hp : p.Sound count none) (page : PageId)
    (loader : Unit → Except Error α) :
    p.Requested page loader (p.getOrLoad page loader).1 (p.getOrLoad page loader).2 := by
  rcases hlookup : p.lookup page with _ | ⟨frame, h⟩
  · have hfetch : p.fetch page = (none, p) := by rw [Pool.fetch, hlookup]
    rcases hload : loader () with e | content
    · have hget : p.getOrLoad page loader = (.error e, p.countMiss) := by
        simp only [getOrLoad, hfetch, hload]
      rw [hget]
      exact .failed hlookup hload
    · have hget : p.getOrLoad page loader = p.countMiss.accept page content := by
        simp only [getOrLoad, hfetch, hload]
      rw [hget]
      obtain ⟨hfull, heq⟩ | ⟨frame, made, hmade, heq⟩ :=
        hp.countMiss.accept_of_lookup_none hlookup content
      · rw [heq]
        exact .full hlookup hload hfull.not_hasRoom
      · rw [heq]
        exact .loaded hlookup hload hmade
  · have hget : p.getOrLoad page loader = (.ok h, (p.fetch page).2) := by
      simp only [getOrLoad, Pool.fetch, hlookup]
      rfl
    rw [hget]
    exact .hit hlookup

namespace Requested

lemma sound (h : p.Requested page loader answer q) (hp : p.Sound count none) :
    q.Sound count none := by
  cases h with
  | hit => exact hp.fetch page
  | failed => exact hp.countMiss
  | full => exact hp.countMiss
  | loaded habsent hload hmade =>
    exact (hmade.sound hp.countMiss).install
      (Sound.find?_of_allocates hmade (hp.countMiss.lookup_eq_none_iff.1 habsent)) _

/-- A page that is found after a request was there before, or has just been loaded. -/
lemma lookup (h : p.Requested page loader answer q) (hp : p.Sound count none) {other : PageId}
    {frame : ℕ} {hd : Handle α} (hfound : q.lookup other = some (frame, hd)) :
    p.lookup other = some (frame, hd) ∨
      other = page ∧ p.lookup page = none ∧ loader () = .ok hd.content := by
  cases h with
  | hit =>
    rw [lookup_fetch] at hfound
    exact .inl hfound
  | failed => exact .inl hfound
  | full => exact .inl hfound
  | @loaded content _ made habsent hload hmade =>
    have hmiss := hp.countMiss
    have hfind := Sound.find?_of_allocates hmade (hmiss.lookup_eq_none_iff.1 habsent)
    rw [(hmade.sound hmiss).lookup_install hfind content] at hfound
    split at hfound
    · next heq =>
      cases hfound
      exact .inr ⟨heq, habsent, hload⟩
    · refine .inl ?_
      obtain ⟨-, hsame⟩ | ⟨-, victim, old, -, -, hrest⟩ := hmiss.lookup_allocates hmade
      · rw [hsame] at hfound
        exact hfound
      · rw [hrest] at hfound
        split at hfound
        · cases hfound
        · exact hfound

/-- A handle that is given out is to the resident page, or to what has just been loaded. -/
lemma content {hd : Handle α} (h : p.Requested page loader (.ok hd) q) :
    (∃ frame, p.lookup page = some (frame, hd)) ∨
      p.lookup page = none ∧ loader () = .ok hd.content := by
  cases h with
  | hit hresident => exact .inl ⟨_, hresident⟩
  | loaded habsent hload hmade => exact .inr ⟨habsent, hload⟩

/-- The handle that is given out is out. -/
lemma out {hd : Handle α} (h : p.Requested page loader (.ok hd) q) :
    q.out = hd.ticket :: p.out := by
  cases h with
  | hit hresident => simp only [Pool.fetch, hresident, lend]
  | @loaded content frame made habsent hload hmade =>
    have hout : made.out = p.out := by cases hmade <;> rfl
    exact congrArg (made.nextTicket :: ·) hout

/-- A request that fails has run its loader, and found it failing or no room. -/
lemma refused {e : Error} (h : p.Requested page loader (.error e) q) :
    p.lookup page = none ∧ (loader () = .error e ∨
      e = .poolFull ∧ ¬ p.HasRoom ∧ ∃ content, loader () = .ok content) := by
  cases h with
  | failed habsent hload => exact ⟨habsent, .inl hload⟩
  | full habsent hload hfull => exact ⟨habsent, .inr ⟨rfl, hfull, _, hload⟩⟩

/-- A request for a page that is not resident is a miss, and is answered with what the loader has,
if there is room for it. -/
lemma miss (h : p.Requested page loader answer q) (habsent : p.lookup page = none) :
    q.misses = p.misses + 1 ∧ q.hits = p.hits ∧
      (answer.map Handle.content = loader () ∨
        answer = .error .poolFull ∧ ¬ p.HasRoom ∧ ∃ content, loader () = .ok content) := by
  cases h with
  | hit hresident =>
    rw [habsent] at hresident
    cases hresident
  | failed _ hload => exact ⟨rfl, rfl, .inl hload.symm⟩
  | full _ hload hfull => exact ⟨rfl, rfl, .inr ⟨rfl, hfull, _, hload⟩⟩
  | @loaded content frame made _ hload hmade =>
    have hcounters : made.misses = p.misses + 1 ∧ made.hits = p.hits := by
      cases hmade <;> exact ⟨rfl, rfl⟩
    exact ⟨hcounters.1, hcounters.2, .inl hload.symm⟩

end Requested

end RowStore.Pool
