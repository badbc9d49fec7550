import RowStore.Pool.Session
import RowStore.Proofs.Pool.Consistency

/-!
# Histories of a pool

A run of a script is cut here into the actions that a pool performs in one piece: answering a
request from the pool, counting a miss, admitting a page that was loaded, taking a handle back, and
discarding.  A request whose page is not resident is several actions, a miss and an admission with
everything that the loader does in between, however deeply loaders are nested.

`Script.actions` lists the actions of a run in order, and `Script.run_eq_after` says that a run is
what its actions do one after the other.  So the states through which a run passes are those after
the first so many actions, and what every action keeps holds in all of them.

These states are the stages of a run (`Script.stage`).  The main statement of this file is
`Script.consistent_stage`: at every stage the frames, the page table, the list of empty frames and
the clock agree.
-/

namespace RowStore

variable {α : Type}

/-! ## Actions -/

/-- What is done to a desk in one piece. -/
inductive Desk.Action (α : Type) where
  /-- A request that is only answered if the page is resident. -/
  | fetch (page : PageId) (keep : Option String)
  /-- A miss, after which the loader runs. -/
  | countMiss
  /-- The admission of a page that a loader has brought. -/
  | accept (page : PageId) (keep : Option String) (content : α)
  /-- Gives back the handle that is kept under a name. -/
  | release (name : String)
  /-- Takes a page out of the pool. -/
  | discardPage (page : PageId)
  /-- Takes the pages of a table out of the pool. -/
  | discardTable (table : TableId)
  /-- Takes all pages out of the pool. -/
  | clear

namespace Desk

/-- The desk on which a miss has been counted. -/
def countMiss (d : Desk α) : Desk α := { d with pool := d.pool.countMiss }

/-- The desk after an action. -/
def act (d : Desk α) : Action α → Desk α
  | .fetch page keep => (d.fetch page keep).2
  | .countMiss => d.countMiss
  | .accept page keep content => (d.accept page keep content).2
  | .release name => (d.release name).2
  | .discardPage page => (d.discardPage page).2
  | .discardTable table => (d.discardTable table).2
  | .clear => d.clear

/-- The desk after several actions. -/
def after (d : Desk α) (actions : List (Action α)) : Desk α := actions.foldl act d

@[simp] lemma after_nil (d : Desk α) : d.after [] = d := rfl

@[simp] lemma after_cons (d : Desk α) (a : Action α) (rest : List (Action α)) :
    d.after (a :: rest) = (d.act a).after rest := rfl

lemma after_append (d : Desk α) (first second : List (Action α)) :
    d.after (first ++ second) = (d.after first).after second :=
  List.foldl_append

/-- The actions of a request, given those of its loader. -/
def loadActions (d : Desk α) (page : PageId) (keep : Option String)
    (loader : Desk α → Except Error α × Desk α) (during : Desk α → List (Action α)) :
    List (Action α) :=
  match d.fetch page keep with
  | (some _, _) => [.fetch page keep]
  | (none, d) =>
    [.fetch page keep, .countMiss] ++ during d.countMiss ++
      match loader d.countMiss with
      | (.error _, _) => []
      | (.ok content, _) => [.accept page keep content]

end Desk

/-- The actions of a run, in order. -/
def Script.actions : Script α → Desk α → List (Desk.Action α)
  | finish _, _ => []
  | load page loader keep next, d =>
    d.loadActions page keep loader.run loader.actions ++
      (next (d.load page keep loader.run).1).actions (d.load page keep loader.run).2
  | fetch page keep next, d =>
    .fetch page keep :: (next (d.fetch page keep).1).actions (d.fetch page keep).2
  | release name next, d => .release name :: (next (d.release name).1).actions (d.release name).2
  | discardPage page next, d =>
    .discardPage page :: (next (d.discardPage page).1).actions (d.discardPage page).2
  | discardTable table next, d =>
    .discardTable table :: (next (d.discardTable table).1).actions (d.discardTable table).2
  | clear next, d => .clear :: next.actions d.clear

namespace Desk

/-- A request is what its actions do, if its loader is. -/
lemma load_eq_after (d : Desk α) (page : PageId) (keep : Option String)
    {loader : Desk α → Except Error α × Desk α} {during : Desk α → List (Action α)}
    (hloader : ∀ d, (loader d).2 = d.after (during d)) :
    (d.load page keep loader).2 = d.after (d.loadActions page keep loader during) := by
  rw [load, loadActions]
  rcases hf : d.fetch page keep with ⟨_ | h, d₁⟩
  · have hfetch : d.act (.fetch page keep) = d₁ := by rw [act, hf]
    have hl := hloader d₁.countMiss
    show (match loader d₁.countMiss with
      | (.error e, d) => (.error e, d)
      | (.ok content, d) => d.accept page keep content : Except Error (Handle α) × Desk α).2 = _
    rw [after_append, after_append, after_cons, after_cons, after_nil, hfetch]
    show _ = (d₁.countMiss.after (during d₁.countMiss)).after _
    rw [← hl]
    rcases loader d₁.countMiss with ⟨_ | content, d₂⟩ <;> rfl
  · rw [after_cons, after_nil, act, hf]

end Desk

/-- A run does to the desk what its actions do. -/
theorem Script.run_eq_after (s : Script α) (d : Desk α) : (s.run d).2 = d.after (s.actions d) := by
  induction s generalizing d with
  | finish answer => rfl
  | load page loader keep next ihl ihn =>
    have hload := d.load_eq_after page keep ihl
    rw [run, actions, Desk.after_append, ← hload]
    exact ihn _ _
  | fetch page keep next ih => exact ih _ _
  | release name next ih => exact ih _ _
  | discardPage page next ih => exact ih _ _
  | discardTable table next ih => exact ih _ _
  | clear next ih => exact ih _

/-! ## What every action keeps -/

/-- A handle was given out by the pool: no page that comes in later has its ticket, and the page
that has it is the one it refers to. -/
def Pool.Knows (p : Pool α) (h : Handle α) : Prop :=
  h.ticket < p.nextTicket ∧ ∀ frame page h', p.residentIn? frame = some (page, h') →
    h'.ticket = h.ticket → h' = h

lemma Pool.Knows.of_renews {p q : Pool α} {h : Handle α} (hk : p.Knows h) (hpq : p.Renews q) :
    q.Knows h := by
  refine ⟨hk.1.trans_le hpq.1, fun frame page h' hr ht => ?_⟩
  rcases hpq.2 frame (page, h') hr with hold | hnew
  · exact hk.2 frame page h' hold ht
  · have hlt := hk.1
    simp only [ht] at hnew
    omega

lemma Pool.Indexed.knows {p : Pool α} (hp : p.Indexed) {frame : ℕ} {page : PageId} {h : Handle α}
    (hr : p.residentIn? frame = some (page, h)) : p.Knows h := by
  refine ⟨hp.ticket_lt hr, fun frame' page' h' hr' ht => ?_⟩
  have hframe := hp.ticket_inj hr' hr ht
  rw [hframe, hr] at hr'
  cases hr'
  rfl

namespace Desk

/-- The pool is sound, and the handles that are out are those that are kept on the desk and those
that were lent to the call in progress. -/
structure Sound (d : Desk α) (count : ℕ) (lent : List (Handle α)) : Prop where
  pool : d.pool.Sound count none
  out_perm : d.pool.out.Perm (lent.map Handle.ticket ++ d.kept.entries.map fun e => e.2.ticket)
  known_lent : ∀ h ∈ lent, d.pool.Knows h
  known_kept : ∀ {name h}, d.kept.find? name = some h → d.pool.Knows h

namespace Sound

variable {d : Desk α} {count : ℕ} {lent : List (Handle α)}

lemma ofFrames (count : ℕ) : (ofFrames count : Desk α).Sound count [] where
  pool := .ofFrames count
  out_perm := .refl _
  known_lent h hh := by cases hh
  known_kept hk := by cases hk

/-- Pages may come and go as long as no handle is given out or taken back. -/
lemma of_renews (hd : d.Sound count lent) {pool : Pool α} (hpool : pool.Sound count none)
    (hout : pool.out = d.pool.out) (hrenews : d.pool.Renews pool) :
    ({ d with pool := pool } : Desk α).Sound count lent where
  pool := hpool
  out_perm := hout ▸ hd.out_perm
  known_lent h hh := (hd.known_lent h hh).of_renews hrenews
  known_kept hk := (hd.known_kept hk).of_renews hrenews

lemma countMiss (hd : d.Sound count lent) : d.countMiss.Sound count lent :=
  hd.of_renews hd.pool.countMiss rfl (.of_frames rfl rfl)

lemma release (hd : d.Sound count lent) (name : String) : (d.release name).2.Sound count lent := by
  unfold Desk.release
  split
  · exact hd
  · next h hk =>
    have hentries : (d.kept.entries.map fun e => e.2.ticket).Perm
        (h.ticket :: (d.kept.erase name).entries.map fun e => e.2.ticket) :=
      (Assoc.entries_perm_erase hk).map _
    have hperm := (hd.out_perm.trans (hentries.append_left _)).trans List.perm_middle
    refine ⟨hd.pool.release h, ?_, fun h' hh => ?_, fun {other _} hk' => ?_⟩
    · have herase := hperm.erase h.ticket
      rwa [List.erase_cons_head] at herase
    · exact (hd.known_lent h' hh).of_renews (.of_frames rfl rfl)
    · rw [Assoc.find?_erase] at hk'
      split at hk'
      · cases hk'
      · exact (hd.known_kept hk').of_renews (.of_frames rfl rfl)

lemma find?_release (d : Desk α) (name : String) : (d.release name).2.kept.find? name = none := by
  unfold Desk.release
  split
  · next hk => exact hk
  · simp

/-- A handle that was lent is kept or given back. -/
lemma keep {h : Handle α} (hd : d.Sound count [h]) (name : Option String) :
    (d.keep name h).Sound count [] := by
  cases name with
  | none =>
    refine ⟨hd.pool.release h, ?_, fun _ hh => (by cases hh), fun hk => ?_⟩
    · have herase := hd.out_perm.erase h.ticket
      rwa [List.map_singleton, List.singleton_append, List.erase_cons_head] at herase
    · exact (hd.known_kept hk).of_renews (.of_frames rfl rfl)
  | some name =>
    have hr := hd.release name
    refine ⟨hr.pool, ?_, fun _ hh => (by cases hh), fun {other _} hk => ?_⟩
    · rw [Desk.keep, Assoc.entries_insert (find?_release d name), List.map_append]
      exact hr.out_perm.trans (List.perm_append_singleton _ _).symm
    · rw [Desk.keep, Assoc.find?_insert] at hk
      split at hk
      · cases hk
        exact hr.known_lent h (by simp)
      · exact hr.known_kept hk

/-- The pool gives out a handle for a page that it holds. -/
lemma lend {pool : Pool α} {frame : ℕ} {page : PageId} {h : Handle α} (hd : d.Sound count [])
    (hpool : pool.Sound count none) (hout : pool.out = h.ticket :: d.pool.out)
    (hrenews : d.pool.Renews pool) (hr : pool.residentIn? frame = some (page, h)) :
    ({ d with pool := pool } : Desk α).Sound count [h] where
  pool := hpool
  out_perm := by
    show pool.out.Perm _
    rw [hout]
    exact hd.out_perm.cons _
  known_lent h' hh := by
    rw [List.mem_singleton.1 hh]
    exact hpool.knows hr
  known_kept hk := (hd.known_kept hk).of_renews hrenews

lemma fetch (hd : d.Sound count []) (page : PageId) (name : Option String) :
    (d.fetch page name).2.Sound count [] := by
  have hpool := hd.pool.fetch page
  have hrenews := d.pool.renews_fetch page
  rw [Desk.fetch]
  rw [Pool.fetch] at hpool hrenews ⊢
  cases hl : d.pool.lookup page with
  | none => exact hd
  | some found =>
    obtain ⟨frame, h⟩ := found
    rw [hl] at hpool hrenews
    exact (hd.lend hpool rfl hrenews (hd.pool.lookup_eq_some_iff.1 hl)).keep name

lemma accept (hd : d.Sound count []) (page : PageId) (name : Option String) (content : α) :
    (d.accept page name content).2.Sound count [] := by
  have hpool := hd.pool.accept page content
  have hrenews := hd.pool.renews_accept page content
  rw [Desk.accept]
  cases hl : d.pool.lookup page with
  | some found =>
    obtain ⟨frame, h⟩ := found
    rw [Pool.accept, hl] at hpool hrenews ⊢
    exact (hd.lend hpool rfl hrenews (hd.pool.lookup_eq_some_iff.1 hl)).keep name
  | none =>
    rcases hd.pool.accept_of_lookup_none hl content with ⟨_, heq⟩ | ⟨frame, made, ha, heq⟩
    · rw [heq]
      exact hd
    · rw [heq] at hpool hrenews ⊢
      have hmade := ha.sound hd.pool
      have hout : made.out = d.pool.out := by cases ha <;> rfl
      have hr : (made.install frame page content).2.residentIn? frame =
          some (page, ⟨made.nextTicket, content⟩) := by
        rw [Pool.residentIn?_set (hmade.length_frames ▸ (hmade.hole_empty rfl).1) rfl, if_pos rfl]
      refine (hd.lend hpool ?_ hrenews hr).keep name
      show _ :: made.out = _
      rw [hout]

lemma discardPage (hd : d.Sound count lent) (page : PageId) :
    (d.discardPage page).2.Sound count lent :=
  hd.of_renews (hd.pool.discardPage page) (Pool.out_discardAll d.pool [page])
    (hd.pool.renews_discardPage page)

lemma discardTable (hd : d.Sound count lent) (table : TableId) :
    (d.discardTable table).2.Sound count lent :=
  hd.of_renews (hd.pool.discardTable table) (Pool.out_discardAll _ _) (hd.pool.renews_discardAll _)

lemma clear (hd : d.Sound count lent) : d.clear.Sound count lent :=
  hd.of_renews hd.pool.clear (Pool.out_discardAll _ _) (hd.pool.renews_discardAll _)

/-- Every action keeps the desk sound. -/
lemma act (hd : d.Sound count []) (a : Action α) : (d.act a).Sound count [] := by
  cases a with
  | fetch page name => exact hd.fetch page name
  | countMiss => exact hd.countMiss
  | accept page name content => exact hd.accept page name content
  | release name => exact hd.release name
  | discardPage page => exact hd.discardPage page
  | discardTable table => exact hd.discardTable table
  | clear => exact hd.clear

lemma after (hd : d.Sound count []) (actions : List (Action α)) :
    (d.after actions).Sound count [] := by
  induction actions generalizing d with
  | nil => exact hd
  | cons a rest ih => exact ih (hd.act a)

lemma run (hd : d.Sound count []) (s : Script α) : (s.run d).2.Sound count [] := by
  rw [s.run_eq_after d]
  exact hd.after _

end Sound

end Desk

/-! ## Consistency -/

/-- The parts of a pool of so many frames agree. -/
structure Pool.Consistent (p : Pool α) (count : ℕ) : Prop where
  /-- The page table sends no two pages to one frame. -/
  table_injective : ∀ page page' frame, p.table.find? page = some frame →
    p.table.find? page' = some frame → page = page'
  /-- A frame holds a page exactly if the page table sends the page there. -/
  pageIn?_iff : ∀ frame page, p.pageIn? frame = some page ↔ p.table.find? page = some frame
  nodup_free : p.free.Nodup
  /-- The list of empty frames holds exactly the frames that are empty. -/
  mem_free_iff : ∀ frame, frame ∈ p.free ↔ p.frames[frame]? = some Frame.empty
  /-- The clock tracks exactly the frames that are not empty. -/
  tracks_iff : ∀ frame, p.clock.tracks frame = true ↔
    ∃ f, p.frames[frame]? = some f ∧ f.isEmpty = false
  /-- The size of the clock is the number of resident pages. -/
  size_clock : p.clock.size = p.table.size
  references_untracked : ∀ frame, p.clock.tracks frame = false → p.clock.references frame = false
  free_add_used : p.stats.free + p.stats.used = p.stats.total
  total : p.stats.total = count

lemma Pool.Sound.consistent {p : Pool α} {count : ℕ} (hp : p.Sound count none) :
    p.Consistent count where
  table_injective page page' frame h1 h2 := by
    obtain ⟨h, hr⟩ := (hp.find?_iff page frame).1 h1
    obtain ⟨h', hr'⟩ := (hp.find?_iff page' frame).1 h2
    rw [hr] at hr'
    cases hr'
    rfl
  pageIn?_iff frame page := by
    rw [pageIn?_eq, hp.find?_iff]
    simp
  nodup_free := hp.nodup_free
  mem_free_iff frame := by
    rw [hp.mem_free_iff, ← hp.length_frames]
    constructor
    · rintro ⟨hlt, hempty, -⟩
      rw [residentIn?, List.getElem?_eq_getElem hlt] at hempty
      rw [List.getElem?_eq_getElem hlt]
      exact congrArg some (congrArg Frame.mk hempty)
    · intro hf
      have hlt := (List.getElem?_eq_some_iff.1 hf).1
      exact ⟨hlt, by rw [residentIn?, hf]; rfl, by simp⟩
  tracks_iff frame := by
    rw [hp.tracks_iff, residentIn?]
    cases hf : p.frames[frame]? <;> simp [Frame.isEmpty, Option.isSome_iff_ne_none]
  size_clock := hp.size_clock
  references_untracked := hp.references_untracked
  free_add_used := hp.total.trans hp.length_frames.symm
  total := hp.length_frames

/-- The desk after the first `n` actions of a run that begins with an empty pool. -/
def Script.stage (s : Script α) (count n : ℕ) : Desk α :=
  (Desk.ofFrames count).after ((s.actions (Desk.ofFrames count)).take n)

lemma Script.sound_stage (s : Script α) (count n : ℕ) : (s.stage count n).Sound count [] :=
  (Desk.Sound.ofFrames count).after _

/-- The last stage of a run is where it ends. -/
lemma Script.stage_of_le (s : Script α) (count : ℕ) {n : ℕ}
    (hn : (s.actions (Desk.ofFrames count)).length ≤ n) :
    s.stage count n = (s.run (Desk.ofFrames count)).2 := by
  rw [stage, List.take_of_length_le hn, s.run_eq_after]

/-- **The parts of a pool agree throughout every run.**  After each action of a run, also while
loaders are running, the pool is consistent; and a run ends where its last action leaves it. -/
theorem Script.consistent_stage (s : Script α) (count : ℕ) :
    (∀ n, (s.stage count n).pool.Consistent count) ∧
      s.stage count (s.actions (Desk.ofFrames count)).length =
        (s.run (Desk.ofFrames count)).2 :=
  ⟨fun n => (s.sound_stage count n).pool.consistent, s.stage_of_le count le_rfl⟩

end RowStore
