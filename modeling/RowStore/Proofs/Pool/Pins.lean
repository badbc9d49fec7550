import RowStore.Proofs.Pool.Loading

/-!
# How many frames are pinned

The handles that are out can belong to several clients.  Here the frames are counted that are pinned
by some of the handles (`Pool.pinnedBy`), so that a share of the pinned frames can be laid to each
client: a client with so many handles pins at most so many frames, and together clients pin at most
as many as each of them does.

When other clients request pages and give them back, the share of a client does not grow: pages may
only leave the pool, and what comes in has a ticket of its own (`Pool.Renews.pinnedBy_le`).  When a
request finds no room, every frame is pinned (`Pool.Sound.le_pinnedBy`).

Which pages are pinned (`Pool.pinnedPages`) settles how a request is answered, if what is resident
is what would be loaded (`Pool.Requested.answer_eq`).  Whether an unpinned page is resident makes no
difference then, although it depends on the whole history of the pool.
-/

namespace RowStore.Pool

variable {α : Type} {p q : Pool α} {count : ℕ} {hole : Option ℕ} {tickets tickets' : List ℕ}

/-- The number of frames that hold a page with one of the tickets. -/
def pinnedBy (p : Pool α) (tickets : List ℕ) : ℕ := p.frames.countP fun f => f.isPinned tickets

/-- The number that the pool reports. -/
lemma pinned_stats (p : Pool α) : p.stats.pinned = p.pinnedBy p.out := rfl

/-! ## Resident tickets -/

/-- The tickets of the pages in the frames. -/
def resident (p : Pool α) : List ℕ := p.frames.filterMap fun f => f.handle?.map Handle.ticket

lemma pinnedBy_eq (p : Pool α) (tickets : List ℕ) :
    p.pinnedBy tickets = p.resident.countP (· ∈ tickets) := by
  rw [pinnedBy, resident, List.countP_filterMap]
  refine List.countP_congr fun f _ => ?_
  rcases f with ⟨_ | ⟨page, h⟩⟩ <;> simp [Frame.isPinned, Frame.handle?]

lemma mem_resident_iff {ticket : ℕ} :
    ticket ∈ p.resident ↔
      ∃ frame page h, p.residentIn? frame = some (page, h) ∧ h.ticket = ticket := by
  rw [resident, List.mem_filterMap]
  constructor
  · rintro ⟨f, hf, hticket⟩
    obtain ⟨frame, hframe⟩ := List.mem_iff_getElem?.1 hf
    obtain ⟨_ | ⟨page, h⟩⟩ := f
    · cases hticket
    · refine ⟨frame, page, h, ?_, Option.some.inj hticket⟩
      rw [residentIn?, hframe]
      rfl
  · rintro ⟨frame, page, h, hr, rfl⟩
    obtain ⟨f, hf, hresident⟩ := Option.bind_eq_some_iff.1 hr
    refine ⟨f, List.mem_of_getElem? hf, ?_⟩
    rw [Frame.handle?, hresident]
    rfl

lemma residentIn?_eq_resident {frame : ℕ} (h : frame < p.frames.length) :
    p.residentIn? frame = p.frames[frame].resident := by
  rw [residentIn?, List.getElem?_eq_getElem h, Option.bind_some]

/-- No two frames hold the same ticket. -/
lemma Indexed.nodup_resident (hp : p.Indexed) : p.resident.Nodup := by
  rw [resident, List.Nodup, List.pairwise_filterMap, List.pairwise_iff_getElem]
  intro i j hi hj hlt ticket hticket ticket' hticket' heq
  obtain ⟨h, hh, rfl⟩ := Option.map_eq_some_iff.1 hticket
  obtain ⟨h', hh', rfl⟩ := Option.map_eq_some_iff.1 hticket'
  obtain ⟨⟨page, _⟩, hr, rfl⟩ := Option.map_eq_some_iff.1 hh
  obtain ⟨⟨page', _⟩, hr', rfl⟩ := Option.map_eq_some_iff.1 hh'
  exact hlt.ne (hp.ticket_inj ((residentIn?_eq_resident hi).trans hr)
    ((residentIn?_eq_resident hj).trans hr') heq)

/-! ## Shares -/

/-- Resident tickets decide how many frames are pinned. -/
lemma Indexed.pinnedBy_le (hq : q.Indexed)
    (h : ∀ ticket ∈ q.resident, ticket ∈ tickets → ticket ∈ p.resident ∧ ticket ∈ tickets') :
    q.pinnedBy tickets ≤ p.pinnedBy tickets' := by
  rw [pinnedBy_eq, pinnedBy_eq, List.countP_eq_length_filter, List.countP_eq_length_filter]
  refine (List.subperm_of_subset (hq.nodup_resident.filter _) fun ticket hticket => ?_).length_le
  obtain ⟨hmem, hin⟩ := List.mem_filter.1 hticket
  obtain ⟨hmem', hin'⟩ := h ticket hmem (of_decide_eq_true hin)
  exact List.mem_filter.2 ⟨hmem', decide_eq_true hin'⟩

/-- So many handles pin at most so many frames. -/
lemma Indexed.pinnedBy_le_length (hp : p.Indexed) (tickets : List ℕ) :
    p.pinnedBy tickets ≤ tickets.length := by
  rw [pinnedBy_eq, List.countP_eq_length_filter]
  refine (List.subperm_of_subset (hp.nodup_resident.filter _) fun ticket hticket => ?_).length_le
  exact of_decide_eq_true (List.mem_filter.1 hticket).2

/-- Two clients pin at most as many frames as each of them does. -/
lemma pinnedBy_le_add {mine yours : List ℕ}
    (h : ∀ ticket ∈ tickets, ticket ∈ mine ∨ ticket ∈ yours) :
    p.pinnedBy tickets ≤ p.pinnedBy mine + p.pinnedBy yours := by
  simp only [pinnedBy_eq]
  generalize p.resident = resident
  induction resident with
  | nil => exact Nat.le_refl 0
  | cons ticket rest ih =>
    have hticket := h ticket
    simp only [List.countP_cons, decide_eq_true_eq]
    split_ifs <;> first | omega | tauto

/-- What other clients do does not pin more frames for a client whose tickets are old ones. -/
lemma Renews.pinnedBy_le (hpq : p.Renews q) (hq : q.Indexed)
    (hold : ∀ ticket ∈ tickets, ticket < p.nextTicket) :
    q.pinnedBy tickets ≤ p.pinnedBy tickets := by
  refine hq.pinnedBy_le fun ticket hticket hmem => ⟨?_, hmem⟩
  obtain ⟨frame, page, h, hr, rfl⟩ := mem_resident_iff.1 hticket
  obtain hr' | hnew := hpq.2 frame (page, h) hr
  · exact mem_resident_iff.2 ⟨frame, page, h, hr', rfl⟩
  · exact absurd (hold _ hmem) (Nat.not_lt.2 hnew)

/-- If there is no room, every frame is pinned. -/
lemma Sound.le_pinnedBy (hp : p.Sound count none) (hfull : ¬ p.HasRoom) :
    count ≤ p.pinnedBy p.out := by
  rw [HasRoom, not_or, not_not] at hfull
  have hall : ∀ f ∈ p.frames, f.isPinned p.out = true := by
    intro f hf
    obtain ⟨frame, hframe⟩ := List.mem_iff_getElem?.1 hf
    have hpinned : p.isPinned frame = f.isPinned p.out := by simp only [isPinned, hframe]
    have hresident : p.residentIn? frame ≠ none := by
      intro hnone
      have hlt : frame < count := hp.length_frames ▸ (List.getElem?_eq_some_iff.1 hframe).1
      have hmem := (hp.mem_free_iff frame).2 ⟨hlt, hnone, by simp⟩
      rw [hfull.1] at hmem
      cases hmem
    obtain ⟨r, hr⟩ := Option.ne_none_iff_exists'.1 hresident
    rw [← hpinned, ← Bool.not_eq_false]
    exact fun hunpinned => hfull.2 ⟨frame, r, hr, hunpinned⟩
  rw [pinnedBy, List.countP_eq_length.2 hall, hp.length_frames]

/-! ## Requests -/

namespace Requested

variable {page : PageId} {loader : Unit → Except Error α} {answer : Except Error (Handle α)}

/-- What a request brings in has a new ticket. -/
lemma renews (h : p.Requested page loader answer q) (hp : p.Sound count none) : p.Renews q := by
  cases h with
  | hit => exact p.renews_fetch page
  | failed => exact .of_frames rfl rfl
  | full => exact .of_frames rfl rfl
  | @loaded content frame made habsent hload hmade =>
    have hmiss := hp.countMiss
    have hroom : p.Renews made := by
      cases hmade with
      | free hfree => exact .of_frames rfl rfl
      | @evict _ old h clock hfree hresident _ _ =>
        exact hmiss.renews_emptied ((hmiss.find?_iff old frame).2 ⟨h, hresident⟩) rfl rfl
    have hlt := ((hmade.sound hmiss).hole_empty rfl).1
    refine hroom.trans ⟨Nat.le_succ _, fun other r hr => ?_⟩
    rw [residentIn?_set ((hmade.sound hmiss).length_frames ▸ hlt) rfl] at hr
    split at hr
    · cases hr
      exact .inr le_rfl
    · exact .inl hr

/-- The tickets that are out are old ones. -/
lemma lt_nextTicket (h : p.Requested page loader answer q) (hp : p.Sound count none)
    (hold : ∀ ticket ∈ p.out, ticket < p.nextTicket) :
    ∀ ticket ∈ q.out, ticket < q.nextTicket := by
  intro ticket hticket
  have hle : p.nextTicket ≤ q.nextTicket := (h.renews hp).1
  rcases answer with e | hd
  · have hout : q.out = p.out := by cases h <;> rfl
    exact (hold ticket (hout ▸ hticket)).trans_le hle
  · rw [h.out] at hticket
    obtain rfl | hticket := List.mem_cons.1 hticket
    · cases h with
      | hit hresident => exact (hp.ticket_lt (hp.lookup_eq_some_iff.1 hresident)).trans_le hle
      | loaded => exact Nat.lt_succ_self _
    · exact (hold ticket hticket).trans_le hle

end Requested

/-! ## Pinned pages -/

/-- The pages that are resident with one of the tickets. -/
def pinnedPages (p : Pool α) (tickets : List ℕ) : Finset PageId :=
  ((p.frames.filter fun f => f.isPinned tickets).filterMap Frame.pageId?).toFinset

lemma Indexed.mem_pinnedPages_iff (hp : p.Indexed) {page : PageId} :
    page ∈ p.pinnedPages tickets ↔
      ∃ frame h, p.lookup page = some (frame, h) ∧ h.ticket ∈ tickets := by
  rw [pinnedPages, List.mem_toFinset, List.mem_filterMap]
  constructor
  · rintro ⟨f, hf, hpage⟩
    obtain ⟨hmem, hpinned⟩ := List.mem_filter.1 hf
    obtain ⟨frame, hframe⟩ := List.mem_iff_getElem?.1 hmem
    obtain ⟨_ | ⟨_, h⟩⟩ := f
    · cases hpage
    · cases hpage
      refine ⟨frame, h, hp.lookup_eq_some_iff.2 ?_, by simpa [Frame.isPinned] using hpinned⟩
      rw [residentIn?, hframe]
      rfl
  · rintro ⟨frame, h, hfound, hticket⟩
    obtain ⟨f, hf, hresident⟩ := Option.bind_eq_some_iff.1 (hp.lookup_eq_some_iff.1 hfound)
    refine ⟨f, List.mem_filter.2 ⟨List.mem_of_getElem? hf, ?_⟩, ?_⟩
    · simpa [Frame.isPinned, hresident] using hticket
    · rw [Frame.pageId?, hresident]
      rfl

/-- No two frames hold the same page. -/
lemma Indexed.nodup_pages (hp : p.Indexed) : (p.frames.filterMap Frame.pageId?).Nodup := by
  rw [List.Nodup, List.pairwise_filterMap, List.pairwise_iff_getElem]
  intro i j hi hj hlt page hpage page' hpage' heq
  obtain ⟨⟨_, h⟩, hr, rfl⟩ := Option.map_eq_some_iff.1 hpage
  obtain ⟨⟨_, h'⟩, hr', rfl⟩ := Option.map_eq_some_iff.1 hpage'
  obtain rfl := heq
  exact hlt.ne (hp.frame_unique ((residentIn?_eq_resident hi).trans hr)
    ((residentIn?_eq_resident hj).trans hr'))

/-- A pinned frame holds a page. -/
lemma Indexed.card_pinnedPages (hp : p.Indexed) (tickets : List ℕ) :
    (p.pinnedPages tickets).card = p.pinnedBy tickets := by
  rw [pinnedPages, List.toFinset_card_of_nodup
    (hp.nodup_pages.sublist (List.filter_sublist.filterMap _)), pinnedBy,
    List.countP_eq_length_filter, List.filterMap_length_eq_length]
  rintro ⟨_ | r⟩ hf
  · cases (List.mem_filter.1 hf).2
  · rfl

/-- There is room as long as not every frame holds a pinned page. -/
lemma Sound.hasRoom_iff (hp : p.Sound count none) :
    p.HasRoom ↔ (p.pinnedPages p.out).card < count := by
  rw [hp.card_pinnedPages]
  constructor
  · intro hroom
    have hsome : ∃ f ∈ p.frames, f.isPinned p.out = false := by
      obtain hfree | ⟨frame, r, hresident, hunpinned⟩ := hroom
      · obtain ⟨frame, hmem⟩ := List.exists_mem_of_ne_nil _ hfree
        obtain ⟨hlt, hnone, -⟩ := (hp.mem_free_iff frame).1 hmem
        have hlt' : frame < p.frames.length := hp.length_frames ▸ hlt
        rw [residentIn?_eq_resident hlt'] at hnone
        exact ⟨_, List.getElem_mem hlt', by rw [Frame.isPinned, hnone]⟩
      · obtain ⟨f, hf, hr⟩ := Option.bind_eq_some_iff.1 hresident
        refine ⟨f, List.mem_of_getElem? hf, ?_⟩
        simpa only [isPinned, hf] using hunpinned
    rw [← hp.length_frames]
    exact List.countP_lt_length_iff.2 hsome
  · intro hlt
    by_contra hfull
    exact absurd (hp.le_pinnedBy hfull) (Nat.not_le.2 hlt)

namespace Requested

variable {page : PageId} {loader : Unit → Except Error α} {answer : Except Error (Handle α)}

/-- A pinned page stays where it is. -/
lemma lookup_of_pinned (h : p.Requested page loader answer q) (hp : p.Sound count none)
    {other : PageId} {frame : ℕ} {hd : Handle α} (hfound : p.lookup other = some (frame, hd))
    (hpinned : hd.ticket ∈ p.out) : q.lookup other = some (frame, hd) := by
  cases h with
  | hit => rw [lookup_fetch, hfound]
  | failed => exact hfound
  | full => exact hfound
  | @loaded content target made habsent hload hmade =>
    have hmiss := hp.countMiss
    have hne : other ≠ page := fun heq => by
      rw [heq, habsent] at hfound
      cases hfound
    rw [(hmade.sound hmiss).lookup_install
      (Sound.find?_of_allocates hmade (hmiss.lookup_eq_none_iff.1 habsent)), if_neg hne]
    obtain ⟨-, hsame⟩ | ⟨-, victim, old, hold, hunpinned, hrest⟩ := hmiss.lookup_allocates hmade
    · rw [hsame]
      exact hfound
    · have hstays : other ≠ victim := fun heq => by
        rw [← heq] at hold
        cases hold.symm.trans hfound
        exact hunpinned hpinned
      rw [hrest, if_neg hstays]
      exact hfound

/-- A handle that is given out is to a page that is resident then. -/
lemma exists_lookup {hd : Handle α} (h : p.Requested page loader (.ok hd) q)
    (hp : p.Sound count none) : ∃ frame, q.lookup page = some (frame, hd) := by
  cases h with
  | @hit frame _ hresident => exact ⟨frame, by rw [lookup_fetch, hresident]⟩
  | @loaded content frame made habsent hload hmade =>
    have hmiss := hp.countMiss
    refine ⟨frame, ?_⟩
    rw [(hmade.sound hmiss).lookup_install
      (Sound.find?_of_allocates hmade (hmiss.lookup_eq_none_iff.1 habsent)), if_pos rfl]

/-- What other clients pin stays the same. -/
lemma pinnedPages_eq (h : p.Requested page loader answer q) (hp : p.Sound count none)
    (hout : ∀ ticket ∈ tickets, ticket ∈ p.out) (hold : ∀ ticket ∈ p.out, ticket < p.nextTicket) :
    q.pinnedPages tickets = p.pinnedPages tickets := by
  have hq := h.sound hp
  ext other
  rw [hq.mem_pinnedPages_iff, hp.mem_pinnedPages_iff]
  constructor
  · rintro ⟨frame, hd, hfound, hticket⟩
    obtain hr | hnew := (h.renews hp).2 frame _ (hq.lookup_eq_some_iff.1 hfound)
    · exact ⟨frame, hd, hp.lookup_eq_some_iff.2 hr, hticket⟩
    · exact absurd (hold _ (hout _ hticket)) (Nat.not_lt.2 hnew)
  · rintro ⟨frame, hd, hfound, hticket⟩
    exact ⟨frame, hd, h.lookup_of_pinned hp hfound (hout _ hticket), hticket⟩

/-- A page that can be loaded is given out if it is pinned or not every frame holds a pinned page,
and refused otherwise. -/
lemma answer_eq (h : p.Requested page loader answer q) (hp : p.Sound count none) {content : α}
    (hload : loader () = .ok content)
    (hfresh : ∀ frame hd, p.lookup page = some (frame, hd) → hd.content = content) :
    answer.map Handle.content =
      if page ∈ p.pinnedPages p.out ∨ (p.pinnedPages p.out).card < count then .ok content
      else .error .poolFull := by
  cases h with
  | @hit frame hd hresident =>
    have hroom : page ∈ p.pinnedPages p.out ∨ (p.pinnedPages p.out).card < count := by
      by_cases hticket : hd.ticket ∈ p.out
      · exact .inl (hp.mem_pinnedPages_iff.2 ⟨frame, hd, hresident, hticket⟩)
      · refine .inr (hp.hasRoom_iff.1 (.inr ⟨frame, _, hp.lookup_eq_some_iff.1 hresident, ?_⟩))
        rw [← Bool.not_eq_true, isPinned_iff]
        rintro ⟨page', hd', hr, hout⟩
        cases hr.symm.trans (hp.lookup_eq_some_iff.1 hresident)
        exact hticket hout
    rw [if_pos hroom, ← hfresh frame hd hresident]
    rfl
  | failed _ hfailed => cases hload.symm.trans hfailed
  | full habsent _ hfull =>
    rw [if_neg]
    · rfl
    · rintro (hmem | hlt)
      · obtain ⟨frame, hd, hfound, -⟩ := hp.mem_pinnedPages_iff.1 hmem
        cases habsent.symm.trans hfound
      · exact hfull (hp.hasRoom_iff.2 hlt)
  | loaded _ hloaded hmade =>
    cases hload.symm.trans hloaded
    have hroom : p.HasRoom := by
      cases hmade with
      | free hfree => exact .inl fun hnil => by cases hnil.symm.trans hfree
      | evict _ hresident hunpinned _ => exact .inr ⟨_, _, hresident, hunpinned⟩
    rw [if_pos (.inr (hp.hasRoom_iff.1 hroom))]
    rfl

end Requested

end RowStore.Pool
