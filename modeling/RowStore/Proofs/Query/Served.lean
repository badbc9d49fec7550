import RowStore.Proofs.Query.Openings
import RowStore.Proofs.Query.Outages

/-!
# Runs in which no request is refused

A page cache may refuse requests, but in many a run it does not.  Of such runs more can be said than
of single calls.  Opening a plan has a result of evaluating it, and draining it gives the rows, or
the first failure among the answers (`Plan.start_drain`).  Until a request is refused, a cursor
replies to its consumer as the answers do; and so it does again after it was rewound or reopened,
wherever it was stopped: with a row ahead, in the middle of the rows on the right of a join, behind
the last row, after a failure or after a request that was refused (`Plan.rewind_reopen`).

That an opening failed because of the plan, and not because of the cache, is seen in the calm cache,
where it would have failed too: the two cannot be told apart before a request is refused, and this
goes for openings as well, if groups are listed alike (`Plan.openings_inStep`).
-/

namespace RowStore

variable {W σ : Type}

open PageCache (Session)

namespace Cursor

/-- Until a request is refused, a cursor replies as a list of answers does. -/
def RepliesAs (cursor : Cursor (Session W) σ) (s : σ) (x : Session W) (answers : List Answer) :
    Prop :=
  ∀ asks told s' x', cursor.replies asks s x = (told, s', x') → x'.refused = x.refused →
    told = (Answers.replies asks answers).1

end Cursor

namespace PageCache.Faithful

variable {c : PageCache W} {Good : W → Prop} (hc : c.Faithful Good)

/-! ## Conversations -/

section

variable {F : Footprint σ} {cursor : Cursor (Session W) σ} {all : List Answer}
  {At : List Answer → σ → Prop}
  (hplays : ∀ v, (hc.refusing F.need).Kin v → v.Plays F cursor all At)
  (hkeeps : ∀ x : Session W, x.lockstep.Cursors cursor cursor)

include hplays hkeeps

/-- A single call on a cursor that plays a list. -/
lemma replies_cons (call : Cursor.Ask) {answers : List Answer} {s : σ} (hs : At answers s)
    {x : Session W} (hx : x.Of c Good) :
    ∃ reply s' x', (∀ rest, cursor.replies (call :: rest) s x =
        (reply :: (cursor.replies rest s' x').1, (cursor.replies rest s' x').2)) ∧
      x'.Of c Good ∧ (∃ left, At left s') ∧ x.refused <+: x'.refused ∧
      (x'.refused = x.refused → At (Answers.replies [call] answers).2 s' ∧
        ∀ rest, (Answers.replies (call :: rest) answers).1 =
          reply :: (Answers.replies rest (Answers.replies [call] answers).2).1) := by
  have hlonger : ∀ {refused : List Error} {e : Error}, refused ++ [e] ≠ refused := by simp
  cases call with
  | hasNext =>
    obtain ⟨answer, s', x', heq, hx', hpost⟩ := hc.runs_or_refused
      (fun v hv => (hplays v hv).hasNext hs) (fun x => (hkeeps x).hasNext) hx
    refine ⟨.hasNext answer, s', x', fun rest => ?_, hx', ?_⟩
    · simp only [Cursor.replies, heq]
    · obtain ⟨hnone, rfl, hs', -⟩ | ⟨e, he, -, hs' | ⟨-, hs', -⟩⟩ := hpost
      · exact ⟨⟨_, hs'⟩, hnone ▸ List.prefix_rfl, fun _ => ⟨hs', fun _ => rfl⟩⟩
      · exact ⟨⟨_, hs'⟩, he ▸ List.prefix_append _ _, fun h => absurd (he.symm.trans h) hlonger⟩
      · exact ⟨⟨_, hs'⟩, he ▸ List.prefix_append _ _, fun h => absurd (he.symm.trans h) hlonger⟩
  | next =>
    obtain ⟨answer, s', x', heq, hx', hpost⟩ := hc.runs_or_refused
      (fun v hv => (hplays v hv).next hs) (fun x => (hkeeps x).next) hx
    refine ⟨.next answer, s', x', fun rest => ?_, hx', ?_⟩
    · simp only [Cursor.replies, heq]
    · obtain ⟨hnone, rfl, hs'⟩ | ⟨e, he, -, hs' | ⟨-, hs'⟩⟩ := hpost
      · exact ⟨⟨_, hs'⟩, hnone ▸ List.prefix_rfl, fun _ => ⟨hs', fun _ => rfl⟩⟩
      · exact ⟨⟨_, hs'⟩, he ▸ List.prefix_append _ _, fun h => absurd (he.symm.trans h) hlonger⟩
      · exact ⟨⟨_, hs'⟩, he ▸ List.prefix_append _ _, fun h => absurd (he.symm.trans h) hlonger⟩

/-- After any calls some answers are left; and until a request is refused, the replies are those of
the answers. -/
lemma replies_answers (asks : List Cursor.Ask) {answers : List Answer} {s s' : σ}
    (hs : At answers s) {x x' : Session W} (hx : x.Of c Good) {told : List Cursor.Reply}
    (h : cursor.replies asks s x = (told, s', x')) :
    x'.Of c Good ∧ (∃ left, At left s') ∧ x.refused <+: x'.refused ∧
      (x'.refused = x.refused → told = (Answers.replies asks answers).1) := by
  induction asks generalizing answers s x told with
  | nil =>
    cases h
    exact ⟨hx, ⟨answers, hs⟩, List.prefix_rfl, fun _ => rfl⟩
  | cons call rest ih =>
    obtain ⟨reply, s₁, x₁, hcons, hx₁, ⟨left, hleft⟩, hstart, hanswers⟩ :=
      hc.replies_cons hplays hkeeps call hs hx
    rw [hcons] at h
    rcases hrest : cursor.replies rest s₁ x₁ with ⟨later, s₂, x₂⟩
    rw [hrest] at h
    cases h
    obtain ⟨hx', hleft', hlater, -⟩ := ih hleft hx₁ hrest
    refine ⟨hx', hleft', hstart.trans hlater, fun hnone => ?_⟩
    -- Nothing was refused on the whole, so nothing was refused in either part.
    have hfirst : x₁.refused = x.refused :=
      (hstart.eq_of_length_le (hnone ▸ hlater.length_le)).symm
    obtain ⟨hs₁, htold⟩ := hanswers hfirst
    rw [htold, (ih hs₁ hx₁ hrest).2.2.2 (hnone.trans hfirst.symm)]

lemma repliesAs {answers : List Answer} {s : σ} (hs : At answers s) {x : Session W}
    (hx : x.Of c Good) : cursor.RepliesAs s x answers :=
  fun asks _ _ _ h => (hc.replies_answers hplays hkeeps asks hs hx h).2.2.2

/-- Going back makes no request, and leads to where the whole list is ahead. -/
lemma rewind {answers : List Answer} {s : σ} (hs : At answers s) {x : Session W}
    (hx : x.Of c Good) :
    ∃ s' x', cursor.rewind s x = (.ok (), s', x') ∧ x'.refused = x.refused ∧ x'.Of c Good ∧
      At all s' := by
  obtain ⟨answer, s', x', heq, ⟨rfl, hs'⟩, hx'⟩ :=
    (hplays (hc.refusing F.need) ⟨rfl, rfl⟩).rewind hs 0 x (Nat.le_refl F.need) hx
  refine ⟨s', x', heq, ?_, hx', hs'⟩
  obtain ⟨_, _, y, _, hy, -, -, hnone, -⟩ | ⟨e, _, _, hy, -⟩ :=
    (hkeeps x).rewind s x x.calm x.rel_calm
  · cases heq.symm.trans hy
    exact hnone
  · cases heq.symm.trans hy

/-- Draining gives the rows, or the first failure. -/
lemma drain (fin : cursor.Finite) {answers : List Answer} {s : σ} (hs : At answers s)
    {x : Session W} (hx : x.Of c Good) {told : Except Failure (List Row)} {s' : σ}
    {x' : Session W} (h : cursor.drain fin s x = (told, s', x')) (hnone : x'.refused = x.refused) :
    told = Answers.drain answers := by
  have hruns : ∀ v, (hc.refusing F.need).Kin v → v.Runs F (cursor.drain fin) s fun answer s' =>
      v.Refusal answer ∧ True ∨ answer = Answers.drain answers :=
    fun v hv => ((hplays v hv).drain fin hs).mono fun _ _ => Or.imp_left fun he => ⟨he, trivial⟩
  obtain ⟨answer, s₁, x₁, heq, -, ⟨-, hanswer⟩ | ⟨e, he, -⟩⟩ := hc.runs_or_refused
    (P := fun _ => True) (Q := fun answer _ => answer = Answers.drain answers) hruns
    (fun x => (hkeeps x).drain fin fin) hx
  · cases h.symm.trans heq
    exact hanswer
  · cases h.symm.trans heq
    simp [hnone] at he

end

/-! ## Opening -/

variable {p : Plan} (orders : p.Orders (Session W)) (havailable : p.Available c.catalog c.disk)
  {s s₁ : p.State} {x x₁ : Session W} (hx : x.Of c Good)

include hc havailable hx

/-- A plan that was opened plays answers to which it evaluates. -/
lemma plays_of_start (hstart : (p.cursor orders).start s x = (.ok (), s₁, x₁)) :
    x₁.Of c Good ∧ ∃ answers, p.Evaluates c.catalog c.disk (.ok answers) ∧
      ∃ At, (∀ v, (hc.refusing p.footprint.need).Kin v →
        v.Plays p.footprint (p.cursor orders) answers At) ∧ At answers s₁ := by
  obtain ⟨answer, s', x', hstart', hpost, hx'⟩ :=
    p.opensAlike (hc.refusing p.footprint.need) orders havailable s 0 x (Nat.le_refl _) hx
  cases hstart.symm.trans hstart'
  obtain _ | _ | ⟨hpossible, hready⟩ := hpost
  exact ⟨hx', _, hpossible, hready⟩

/-- If opening a plan fails and no request was refused, the plan evaluates to this failure. -/
lemma evaluates_of_start_error {e : Failure}
    (hstart : (p.cursor orders).start s x = (.error e, s₁, x₁)) (hnone : x₁.refused = x.refused) :
    p.Evaluates c.catalog c.disk (.error e) := by
  let see : Session W → Session W := fun z => { z with cache := x.cache }
  have hsee : ∀ {y z}, x.lockstep.Rel y z → see z = y := by
    rintro ⟨_, state, refused⟩ _ ⟨rfl, -, rfl⟩
    rfl
  obtain ⟨answer, s', y, z, hy, hz, -⟩ | ⟨e', s', y, hy, he⟩ :=
    (p.openings_inStep x.lockstep hsee orders).start s x x.calm x.rel_calm
  · cases hstart.symm.trans hy
    -- The calm cache refuses nothing, so it is the plan that fails there.
    obtain ⟨_, _, _, hz', hpost, -⟩ := p.opensAlike (hc.serving p.footprint.need) (orders.seen see)
      havailable s 0 x.calm (Nat.le_refl _) ⟨congrArg PageCache.calm hx.cache_eq, hx.good⟩
    cases hz.symm.trans hz'
    obtain he | he := hpost
    · exact absurd he not_false
    · exact he
  · cases hstart.symm.trans hy
    have hlonger : x₁.refused = x.refused ++ [e'] := he
    simp [hnone] at hlonger

end PageCache.Faithful

/-! ## Plans -/

namespace Plan

variable {c : PageCache W} {Good : W → Prop} {p : Plan}

/-- **Opening and draining a plan computes what it evaluates to.**  A new cursor of a plan is opened
on a faithful page cache.  If no request is refused, this ends as an evaluation of the plan does.
If that is a list of answers, and no request is refused either while the cursor is drained, draining
it gives the rows of the list, or the first failure in it.  If the fields of the plan are in range,
every failure is about a value of the wrong type. -/
theorem start_drain (hc : c.Faithful Good) (orders : p.Orders (Session W))
    (havailable : p.Available c.catalog c.disk) {x : Session W} (hx : x.Of c Good)
    {answer : Except Failure Unit} {s₁ : p.State} {x₁ : Session W}
    (hstart : (p.cursor orders).start p.initial x = (answer, s₁, x₁))
    (hserved : x₁.refused = x.refused) :
    ∃ result, p.Evaluates c.catalog c.disk result ∧ answer = result.map (fun _ => ()) ∧
      (∀ answers, result = .ok answers → ∀ told s₂ x₂, p.drain orders s₁ x₁ = (told, s₂, x₂) →
        x₂.refused = x₁.refused → told = Answers.drain answers) ∧
      (p.InRange → ∀ e, (result = .error e ∨ ∃ answers, result = .ok answers ∧
        .error e ∈ answers) → e.IsMismatch) := by
  have hregular : ∀ result, p.Evaluates c.catalog c.disk result → p.InRange →
      ∀ e, (result = .error e ∨ ∃ answers, result = .ok answers ∧ .error e ∈ answers) →
        e.IsMismatch := by
    rintro result hresult hrange e (he | ⟨answers, hanswers, he⟩)
    · exact (hresult.regular havailable hrange).1 e he
    · exact ((hresult.regular havailable hrange).2 answers hanswers).mismatch he
  rcases answer with e | ⟨⟩
  · have hevaluates := hc.evaluates_of_start_error orders havailable hx hstart hserved
    exact ⟨.error e, hevaluates, rfl, fun _ h => (by cases h), hregular _ hevaluates⟩
  · obtain ⟨hx₁, answers, hevaluates, At, hplays, hs⟩ :=
      hc.plays_of_start orders havailable hx hstart
    refine ⟨.ok answers, hevaluates, rfl, ?_, hregular _ hevaluates⟩
    intro _ hanswers told s₂ x₂ hdrain hnone
    cases hanswers
    exact hc.drain hplays (fun x => p.cursors_inStep x.lockstep orders orders)
      (p.finite_cursor orders) hs hx₁ hdrain hnone

/-- The filter that finds the 9 in the file of numbers. -/
def nines : Plan := filter ⟨0, .gt, .int 7⟩ (scan ⟨⟨0⟩, none, numbers⟩)

/-- The row that it finds. -/
def nine : Row := ⟨numbers, [some (.int 9)], some ⟨⟨⟨0⟩, 0⟩, 1⟩⟩

/-- The database of numbers, which nobody else uses. -/
def numbersSession : Session (ℕ × Database) :=
  ⟨numbersDatabase.shared fun _ => [], (0, numbersDatabase), []⟩

lemma evaluates_nines {result : Except Failure (List Answer)}
    (h : nines.Evaluates numbersDatabase.catalog numbersDatabase.disk result) :
    result = .ok [.ok nine] := by
  obtain ⟨below, hbelow, rfl⟩ := h.of_filter
  obtain ⟨file, list, hfile, hlist, rfl⟩ := hbelow.of_scan
  obtain rfl : numbersFile = file := Except.ok.inj hfile
  obtain rfl := Except.ok.inj (contents_numbersFile.symm.trans hlist)
  rfl

/-- The database of numbers is a faithful cache for whoever uses it alone. -/
lemma faithful_numbersSession : (numbersDatabase.shared fun _ => []).Faithful fun w =>
    Database.UpToDate 1 numbersDatabase.catalog numbersDatabase.disk w.2 :=
  Database.faithful_shared Catalog.id_of_heapFile_add_empty fun _ _ h => by cases h

lemma of_numbersSession : numbersSession.Of (numbersDatabase.shared fun _ => []) fun w =>
    Database.UpToDate 1 numbersDatabase.catalog numbersDatabase.disk w.2 :=
  ⟨rfl, .of_ofFrames Catalog.id_of_heapFile_add_empty⟩

lemma available_nines : nines.Available numbersDatabase.catalog numbersDatabase.disk :=
  ⟨numbersFile, _, rfl, rfl, contents_numbersFile⟩

/-- The feed of the filter. -/
def ninesFeed : Feed (Session (ℕ × Database)) (Option FileScan) :=
  Filter.feed (Predicate.test ⟨0, .gt, .int 7⟩) (TableScan.cursor ⟨⟨0⟩, none, numbers⟩)
    (TableScan.finite_cursor _)

/-- The scan below the filter, when it was opened and pulled several times. -/
def pulled : ℕ → Option FileScan × Session (ℕ × Database)
  | 0 => (some ⟨numbersFile, some (.ofPages 1)⟩, numbersSession)
  | n + 1 => ((TableScan.cursor ⟨⟨0⟩, none, numbers⟩).pull (pulled n).1 (pulled n).2).2

lemma start_nines : (nines.cursor .plain).start nines.initial numbersSession =
    (.ok (), ⟨(pulled 0).1, none, true⟩, (pulled 0).2) := rfl

/-- The filter passes over the first row, finds the second one, and then nothing more. -/
lemma fetch_nines :
    ninesFeed.fetch (pulled 0).1 (pulled 0).2 = (.ok (some nine), pulled 2) ∧
      ninesFeed.fetch (pulled 2).1 (pulled 2).2 = (.ok none, pulled 3) := by
  let c : Cursor (Session (ℕ × Database)) (Option FileScan) :=
    TableScan.cursor ⟨⟨0⟩, none, numbers⟩
  let seven : Row := ⟨numbers, [some (.int 7)], some ⟨⟨⟨0⟩, 0⟩, 0⟩⟩
  have hfirst : c.pull (pulled 0).1 (pulled 0).2 = (.ok (some seven), pulled 1) :=
    Prod.ext (by cbv) rfl
  have hsecond : c.pull (pulled 1).1 (pulled 1).2 = (.ok (some nine), pulled 2) :=
    Prod.ext (by cbv) rfl
  have hthird : c.pull (pulled 2).1 (pulled 2).2 = (.ok none, pulled 3) := Prod.ext (by cbv) rfl
  exact ⟨(Cursor.find_of_some hfirst).trans (Cursor.find_of_some hsecond),
    Cursor.find_of_none hthird⟩

/-- Of the rows of the file, the filter hands out the one that is greater than 7. -/
theorem start_drain_numbers : ∃ s x,
    nines.drain .plain ⟨(pulled 0).1, none, true⟩ (pulled 0).2 = (.ok [nine], s, x) := by
  have htake : (nines.cursor .plain).pull ⟨(pulled 0).1, none, true⟩ (pulled 0).2 =
      (.ok (some nine), ⟨(pulled 2).1, none, true⟩, (pulled 2).2) :=
    Lookahead.pull_of_fetch fetch_nines.1
  have hend : (nines.cursor .plain).pull ⟨(pulled 2).1, none, true⟩ (pulled 2).2 =
      (.ok none, ⟨(pulled 3).1, none, true⟩, (pulled 3).2) :=
    Lookahead.pull_of_fetch fetch_nines.2
  have hdrain :
      (nines.drain .plain ⟨(pulled 0).1, none, true⟩ (pulled 0).2).2.2 = (pulled 3).2 := by
    simp only [drain, Cursor.drain, Cursor.fold_of_some htake, Cursor.fold_of_none hend]
  have hserved : (pulled 3).2.refused = (pulled 0).2.refused := by cbv
  rcases heq : nines.drain .plain ⟨(pulled 0).1, none, true⟩ (pulled 0).2 with ⟨told, s, x⟩
  rw [heq] at hdrain
  obtain ⟨result, hevaluates, -, htold, -⟩ :=
    start_drain faithful_numbersSession .plain available_nines of_numbersSession start_nines rfl
  obtain rfl := evaluates_nines hevaluates
  obtain rfl := htold _ rfl told s x heq ((congrArg Session.refused hdrain).trans hserved)
  exact ⟨s, x, rfl⟩

/-- **A plan that is rewound or reopened begins again.**  A cursor that was opened on a faithful
page cache replies, until a request is refused, as the answers do to which the plan evaluates.
After any calls it can be rewound, and then replies as they do again.  It can also be closed and
opened again, if no request is refused, and then replies as another evaluation of the plan does,
with the same answers up to the order of groups, which may be listed in other orders than before.
Rewinding an aggregation only goes back to its first result, whatever its child may be. -/
theorem rewind_reopen (hc : c.Faithful Good) (orders : p.Orders (Session W))
    (havailable : p.Available c.catalog c.disk) {x₀ : Session W} (hx₀ : x₀.Of c Good)
    {s₀ s₁ : p.State} {x₁ : Session W}
    (hstart : (p.cursor orders).start s₀ x₀ = (.ok (), s₁, x₁)) :
    (∃ answers, p.Evaluates c.catalog c.disk (.ok answers) ∧
      (p.cursor orders).RepliesAs s₁ x₁ answers ∧
      ∀ asks told s x, (p.cursor orders).replies asks s₁ x₁ = (told, s, x) →
        (∃ s₂ x₂, (p.cursor orders).rewind s x = (.ok (), s₂, x₂) ∧ x₂.refused = x.refused ∧
          (p.cursor orders).RepliesAs s₂ x₂ answers) ∧
        ∀ (orders' : p.Orders (Session W)) s₂ x₂ answer s₃ x₃,
          (p.cursor orders).close s x = (s₂, x₂) →
            (p.cursor orders').start s₂ x₂ = (answer, s₃, x₃) → x₃.refused = x₂.refused →
              answer = .ok () ∧ ∃ answers', p.Evaluates c.catalog c.disk (.ok answers') ∧
                answers'.Perm answers ∧ (p.Ungrouped → answers' = answers) ∧
                (p.cursor orders').RepliesAs s₃ x₃ answers') ∧
    ∀ (V τ : Type) (a : Aggregation) (order : Arrangement V) (child : Cursor V τ)
      (fin : child.Finite) (s : Lookahead (AggregationState τ)) (v : V), s.isOpen = true →
        (Lookahead.cursor (a.feed order child fin)).rewind s v =
          (.ok (), ⟨⟨s.feed.child, s.feed.results.map fun r => (r.1, 0)⟩, none, true⟩, v) := by
  refine ⟨?_, fun V τ a order child fin s v hopen => ?_⟩
  · have hkeeps : ∀ (orders : p.Orders (Session W)) (x : Session W),
        x.lockstep.Cursors (p.cursor orders) (p.cursor orders) :=
      fun orders x => p.cursors_inStep x.lockstep orders orders
    obtain ⟨hx₁, answers, hevaluates, At, hplays, hs₁⟩ :=
      hc.plays_of_start orders havailable hx₀ hstart
    refine ⟨answers, hevaluates, hc.repliesAs hplays (hkeeps orders) hs₁ hx₁,
      fun asks told s x hasks => ?_⟩
    obtain ⟨hx, ⟨left, hs⟩, -⟩ := hc.replies_answers hplays (hkeeps orders) asks hs₁ hx₁ hasks
    constructor
    · obtain ⟨s₂, x₂, hrewind, hnone, hx₂, hs₂⟩ := hc.rewind hplays (hkeeps orders) hs hx
      exact ⟨s₂, x₂, hrewind, hnone, hc.repliesAs hplays (hkeeps orders) hs₂ hx₂⟩
    · intro orders' s₂ x₂ answer s₃ x₃ hclose hreopen hnone
      obtain ⟨_, _, hclose', hx₂⟩ := p.tidies (hc.refusing p.footprint.need) orders s 0 x hx
      cases hclose.symm.trans hclose'
      rcases answer with e | ⟨⟩
      · -- Which answers there are depends on the order of groups, but not whether there are any.
        have hfailed := hc.evaluates_of_start_error orders' havailable hx₂ hreopen hnone
        obtain ⟨_, hok, -⟩ := hevaluates.exists_perm hfailed
        cases hok
      · obtain ⟨hx₃, answers', hevaluates', At', hplays', hs₃⟩ :=
          hc.plays_of_start orders' havailable hx₂ hreopen
        obtain ⟨_, hok, hperm⟩ := hevaluates.exists_perm hevaluates'
        cases hok
        refine ⟨rfl, answers', hevaluates', hperm, fun hungrouped => ?_,
          hc.repliesAs hplays' (hkeeps orders') hs₃ hx₃⟩
        exact Except.ok.inj (hevaluates.eq_of_ungrouped hungrouped hevaluates')
  · obtain ⟨feed, ahead, isOpen⟩ := s
    subst hopen
    rfl

/-- After its only row was taken and another was asked for, the filter finds the row again. -/
theorem rewind_reopen_nines : ∃ s x,
    (nines.cursor .plain).rewind ⟨(pulled 3).1, none, true⟩ (pulled 3).2 = (.ok (), s, x) ∧
      ∀ told s' x', (nines.cursor .plain).replies [.next] s x = (told, s', x') →
        x'.refused = x.refused → told = [.next (.ok nine)] := by
  have htake : (nines.cursor .plain).next ⟨(pulled 0).1, none, true⟩ (pulled 0).2 =
      (.ok nine, ⟨(pulled 2).1, none, true⟩, (pulled 2).2) :=
    Lookahead.next_of_fetch fetch_nines.1
  have hend : (nines.cursor .plain).next ⟨(pulled 2).1, none, true⟩ (pulled 2).2 =
      (.error exhausted, ⟨(pulled 3).1, none, true⟩, (pulled 3).2) :=
    Lookahead.next_of_fetch fetch_nines.2
  have hasks : (nines.cursor .plain).replies [.next, .next] ⟨(pulled 0).1, none, true⟩
      (pulled 0).2 = ([.next (.ok nine), .next (.error exhausted)],
        ⟨(pulled 3).1, none, true⟩, (pulled 3).2) := by
    simp only [Cursor.replies, htake, hend]
  obtain ⟨⟨answers, hevaluates, -, hagain⟩, -⟩ :=
    rewind_reopen faithful_numbersSession .plain available_nines of_numbersSession start_nines
  obtain rfl := Except.ok.inj (evaluates_nines hevaluates)
  obtain ⟨⟨s, x, hrewind, -, hreplies⟩, -⟩ := hagain _ _ _ _ hasks
  exact ⟨s, x, hrewind, hreplies [.next]⟩

end Plan

end RowStore
