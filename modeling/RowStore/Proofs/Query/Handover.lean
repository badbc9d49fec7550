import RowStore.Proofs.Query.Ledger
import RowStore.Proofs.Query.Semantics

/-!
# From the feed to the reader

The ledger of a cursor is in order (`Ledger.InOrder`) if a reader and a feed can rely on the cursor:
rows reach the reader in the order in which they are produced, each of them once, the feed is not
asked for more than it has to be, its failures are passed on, and a closed cursor leaves it alone.
Whatever the feed does and whatever calls the reader makes, the ledger is in order
(`Lookahead.ledger_inOrder`).  All this follows from what befits a cursor at the time of each call
(`Ledger.inOrder_of_befits`); the state of the cursor is not looked at again.

One may expect that a reader who is not told that there is a row does not get one by asking for it.
This is wrong, because the cursor does not remember what the feed said when it had no row.  It asks
again, and by then the feed may have a row (`Lookahead.ledger_resuming`).
-/

namespace RowStore

variable {W σ : Type}

namespace Ledger

/-- What a reader and a feed can rely on. -/
structure InOrder (ledger : List Entry) : Prop where
  /-- Every call does what befits the cursor at the time. -/
  befits : ∀ es e rest, ledger = es ++ e :: rest → e.Befits (isOpen es) (pending es)
  /-- At any time, the rows that were taken and then the pending one, if there is one, are those
  that were produced since rows were last discarded. -/
  taken_append_pending : ∀ es, es <+: ledger →
    taken es ++ pending es = produced es ∧ (pending es).length ≤ 1
  /-- While the reader keeps asking whether there is a row, the feed is asked once each time, until
  it has produced one, and not any more after that. -/
  asked : ∀ es asks e rest, ledger = es ++ asks ++ e :: rest → isOpen es = true →
    pending es = [] → (∀ a ∈ asks, ∃ answer, a.said = .hasNext answer) →
    ((∃ answer, e.said = .hasNext answer) ∨ ∃ answer, e.said = .next answer) →
    ((∃ a ∈ asks, a.said = .hasNext (.ok true)) → e.asked = []) ∧
      ((∀ a ∈ asks, a.said ≠ .hasNext (.ok true)) → ∃ answer, e.asked = [.fetch answer])
  /-- The reader is told that there is a row exactly if he then gets one for which the feed is not
  asked.  If he is told anything else by an open cursor, the feed is asked for it again. -/
  foretold : ∀ es e e' rest, ledger = es ++ e :: e' :: rest →
    (∃ answer, e.said = .hasNext answer) → (∃ answer, e'.said = .next answer) →
    (e.said = .hasNext (.ok true) ↔ e'.asked = [] ∧ ∃ row, e'.said = .next (.ok row)) ∧
      (isOpen es = true → e.said ≠ .hasNext (.ok true) →
        ∃ answer, e'.asked = [.fetch answer] ∧ e'.said = .next (Entry.passOn answer))
  /-- A failure of the feed to produce a row is passed on, and no row is pending after it. -/
  fetch_error : ∀ es e rest failure, ledger = es ++ e :: rest → .fetch (.error failure) ∈ e.asked →
    (e.said = .hasNext (.error failure) ∨ e.said = .next (.error failure)) ∧
      pending (es ++ [e]) = []
  /-- A feed that cannot be made ready is given back, once, and the cursor is closed. -/
  start_error : ∀ es e rest failure, ledger = es ++ e :: rest → e.said = .start (.error failure) →
    e.asked = [.start (.error failure), .close] ∧ isOpen (es ++ [e]) = false

/-! ## What befitting entries add up to -/

variable {es : List Entry} {e : Entry}

lemma pending_concat (hes : taken es ++ pending es = produced es) (hkeeps : e.discards = false)
    (htaken : e.taken = []) : pending (es ++ [e]) = pending es ++ e.produced := by
  have hkeeps' : ¬ e.discards = true := by simp [hkeeps]
  rw [pending, produced_concat, taken_concat, if_neg hkeeps', if_neg hkeeps', htaken,
    List.append_nil, ← hes, List.append_assoc, List.drop_left]

/-- After a reader has asked an open cursor whether there is a row, one is pending if he was told
so, and none otherwise. -/
lemma pending_of_hasNext (hes : taken es ++ pending es = produced es) (hopen : isOpen es = true)
    (he : e.Befits (isOpen es) (pending es)) {answer : Except Failure Bool}
    (hsaid : e.said = .hasNext answer) :
    (e.said = .hasNext (.ok true) → ∃ row, pending (es ++ [e]) = [row]) ∧
      (e.said ≠ .hasNext (.ok true) → pending es = [] ∧ pending (es ++ [e]) = []) := by
  rw [hopen] at he
  generalize hpending : pending es = rows at he
  cases he with
  | hasNext_pending row =>
    have hafter := pending_concat (e := ⟨.hasNext (.ok true), []⟩) hes rfl rfl
    rw [hpending] at hafter
    exact ⟨fun _ => ⟨row, hafter⟩, fun h => absurd rfl h⟩
  | hasNext_fetch answer =>
    have hafter := pending_concat
      (e := ⟨.hasNext (answer.map Option.isSome), [.fetch answer]⟩) hes rfl rfl
    rw [hpending] at hafter
    rcases answer with failure | _ | row
    · exact ⟨fun h => (by cases h), fun _ => ⟨rfl, hafter⟩⟩
    · exact ⟨fun h => (by cases h), fun _ => ⟨rfl, hafter⟩⟩
    · exact ⟨fun _ => ⟨row, hafter⟩, fun h => absurd rfl h⟩
  | _ => cases hsaid

/-- While a reader keeps asking an open cursor whether there is a row, one is pending as soon as he
was told so. -/
lemma pending_of_asks {asks : List Entry}
    (hbalanced : ∀ before, before <+: es ++ asks →
      taken before ++ pending before = produced before)
    (hbefits : ∀ before e rest, es ++ asks = before ++ e :: rest →
      e.Befits (isOpen before) (pending before))
    (hopen : isOpen es = true) (hpending : pending es = [])
    (hasks : ∀ a ∈ asks, ∃ answer, a.said = .hasNext answer) :
    isOpen (es ++ asks) = true ∧
      ((∃ a ∈ asks, a.said = .hasNext (.ok true)) → ∃ row, pending (es ++ asks) = [row]) ∧
      ((∀ a ∈ asks, a.said ≠ .hasNext (.ok true)) → pending (es ++ asks) = []) := by
  induction asks using List.reverseRecOn with
  | nil =>
    rw [List.append_nil]
    exact ⟨hopen, fun ⟨_, h, _⟩ => absurd h List.not_mem_nil, fun _ => hpending⟩
  | append_singleton asks a ih =>
    rw [← List.append_assoc] at hbalanced hbefits ⊢
    obtain ⟨hopen', htold, huntold⟩ := ih
      (fun before h => hbalanced before (h.trans (List.prefix_append _ _)))
      (fun before e rest h => hbefits before e (rest ++ [a]) (by rw [h]; simp))
      fun b hb => hasks b (List.mem_append_left _ hb)
    obtain ⟨answer, hsaid⟩ := hasks a (by simp)
    have ha := hbefits (es ++ asks) a [] rfl
    obtain ⟨htrue, hfalse⟩ :=
      pending_of_hasNext (hbalanced _ (List.prefix_append _ _)) hopen' ha hsaid
    have hopens : a.opens? = none := by rw [Entry.opens?, hsaid]
    refine ⟨by rw [isOpen_concat, hopens, Option.getD_none, hopen'], fun ⟨b, hb, hbsaid⟩ => ?_,
      fun h => (hfalse (h a (by simp))).2⟩
    by_cases hasaid : a.said = .hasNext (.ok true)
    · exact htrue hasaid
    · -- Then none was pending when he asked, so he cannot have been told so before.
      rcases List.mem_append.1 hb with hb | hb
      · obtain ⟨row, hrow⟩ := htold ⟨b, hb, hbsaid⟩
        rw [(hfalse hasaid).1] at hrow
        cases hrow
      · rw [List.mem_singleton.1 hb] at hbsaid
        exact absurd hbsaid hasaid

/-- What a call for a row or for whether there is one asks of the feed. -/
lemma asked_of_befits (hopen : isOpen es = true) (he : e.Befits (isOpen es) (pending es))
    (hsaid : (∃ answer, e.said = .hasNext answer) ∨ ∃ answer, e.said = .next answer) :
    ((∃ row, pending es = [row]) → e.asked = []) ∧
      (pending es = [] → ∃ answer, e.asked = [.fetch answer]) := by
  rw [hopen] at he
  generalize pending es = rows at he
  cases he with
  | hasNext_pending row => exact ⟨fun _ => rfl, fun h => by cases h⟩
  | next_pending row => exact ⟨fun _ => rfl, fun h => by cases h⟩
  | hasNext_fetch answer => exact ⟨fun ⟨_, h⟩ => (by cases h), fun _ => ⟨answer, rfl⟩⟩
  | next_fetch answer => exact ⟨fun ⟨_, h⟩ => (by cases h), fun _ => ⟨answer, rfl⟩⟩
  | _ => obtain ⟨_, h⟩ | ⟨_, h⟩ := hsaid <;> cases h

/-- What follows from asking a closed cursor. -/
lemma said_of_closed (hclosed : isOpen es = false) (he : e.Befits (isOpen es) (pending es)) :
    e.said ≠ .hasNext (.ok true) ∧ ∀ row, e.said ≠ .next (.ok row) := by
  rw [hclosed] at he
  generalize pending es = rows at he
  cases he <;> exact ⟨fun h => (by cases h), fun _ h => (by cases h)⟩

lemma next_of_befits (hopen : isOpen es = true) (he : e.Befits (isOpen es) (pending es))
    {answer : Except Failure Row} (hsaid : e.said = .next answer) :
    (∀ row, pending es = [row] → e.asked = [] ∧ e.said = .next (.ok row)) ∧
      (pending es = [] →
        ∃ answer, e.asked = [.fetch answer] ∧ e.said = .next (Entry.passOn answer)) := by
  rw [hopen] at he
  generalize pending es = rows at he
  cases he with
  | next_pending row =>
    refine ⟨fun r h => ?_, fun h => by cases h⟩
    cases h
    exact ⟨rfl, rfl⟩
  | next_fetch answer => exact ⟨fun _ h => (by cases h), fun _ => ⟨answer, rfl, rfl⟩⟩
  | _ => cases hsaid

lemma fetch_error_of_befits (hes : taken es ++ pending es = produced es)
    (he : e.Befits (isOpen es) (pending es)) {failure : Failure}
    (hasked : .fetch (.error failure) ∈ e.asked) :
    (e.said = .hasNext (.error failure) ∨ e.said = .next (.error failure)) ∧
      pending (es ++ [e]) = [] := by
  generalize isOpen es = opened at he
  generalize hpending : pending es = rows at he
  cases he with
  | hasNext_fetch answer =>
    obtain rfl : .error failure = answer := by simpa using hasked
    refine ⟨.inl rfl, ?_⟩
    rw [pending_concat hes rfl rfl, hpending]
    rfl
  | next_fetch answer =>
    obtain rfl : .error failure = answer := by simpa using hasked
    refine ⟨.inr rfl, ?_⟩
    rw [pending_concat hes rfl rfl, hpending]
    rfl
  | _ => simp at hasked

lemma start_error_of_befits (he : e.Befits (isOpen es) (pending es)) {failure : Failure}
    (hsaid : e.said = .start (.error failure)) :
    e.asked = [.start (.error failure), .close] ∧ isOpen (es ++ [e]) = false := by
  refine ⟨?_, by rw [isOpen_concat, Entry.opens?, hsaid]; rfl⟩
  generalize isOpen es = opened at he
  generalize pending es = rows at he
  cases he with
  | start_error _ _ e =>
    cases hsaid
    rfl
  | _ => cases hsaid

/-- **A ledger is in order if its entries are.** -/
lemma inOrder_of_befits {ledger : List Entry}
    (hbefits : ∀ es e rest, ledger = es ++ e :: rest → e.Befits (isOpen es) (pending es))
    (hbalanced : ∀ es, es <+: ledger →
      taken es ++ pending es = produced es ∧ (pending es).length ≤ 1) : InOrder ledger where
  befits := hbefits
  taken_append_pending := hbalanced
  asked := by
    rintro es asks e rest rfl hopen hpending hasks hsaid
    obtain ⟨hopen', htold, huntold⟩ := pending_of_asks
      (fun before h => (hbalanced before (h.trans (List.prefix_append _ _))).1)
      (fun before e' rest' h => hbefits before e' (rest' ++ e :: rest) (by rw [h]; simp))
      hopen hpending hasks
    obtain ⟨hkept, hempty⟩ := asked_of_befits hopen' (hbefits _ e rest rfl) hsaid
    exact ⟨fun h => hkept (htold h), fun h => hempty (huntold h)⟩
  foretold := by
    rintro es e e' rest rfl ⟨answer, hsaid⟩ ⟨answer', hsaid'⟩
    have he := hbefits es e (e' :: rest) rfl
    have he' := hbefits (es ++ [e]) e' rest (by simp)
    have hopens : isOpen (es ++ [e]) = isOpen es := by
      rw [isOpen_concat, Entry.opens?, hsaid]
      rfl
    cases hopen : isOpen es with
    | false =>
      refine ⟨⟨fun h => absurd h (said_of_closed hopen he).1, fun ⟨_, row, h⟩ => ?_⟩,
        fun h => by cases h⟩
      exact absurd h ((said_of_closed (hopens.trans hopen) he').2 row)
    | true =>
      obtain ⟨htrue, hfalse⟩ :=
        pending_of_hasNext (hbalanced es (List.prefix_append _ _)).1 hopen he hsaid
      obtain ⟨hkept, hempty⟩ := next_of_befits (hopens.trans hopen) he' hsaid'
      refine ⟨⟨fun h => ?_, fun ⟨hasked, _⟩ => ?_⟩, fun _ h => hempty (hfalse h).2⟩
      · obtain ⟨row, hrow⟩ := htrue h
        exact ⟨(hkept row hrow).1, row, (hkept row hrow).2⟩
      · by_contra h
        obtain ⟨_, hasked', -⟩ := hempty (hfalse h).2
        rw [hasked] at hasked'
        cases hasked'
  fetch_error := by
    rintro es e rest failure rfl hasked
    exact fetch_error_of_befits (hbalanced es (List.prefix_append _ _)).1 (hbefits es e rest rfl)
      hasked
  start_error := by
    rintro es e rest failure rfl hsaid
    exact start_error_of_befits (hbefits es e rest rfl) hsaid

end Ledger

/-! ## Every ledger is in order -/

namespace Lookahead

/-- A cursor answers that there is a row exactly if asking for it instead would give one. -/
lemma hasNext_eq_true_iff (f : Feed W σ) (s : Lookahead σ) (w : W) :
    (hasNext f s w).1 = .ok true ↔ ∃ row, (next f s w).1 = .ok row := by
  obtain ⟨feed, ahead, _ | _⟩ := s
  · exact ⟨fun h => (by cases h), fun ⟨_, h⟩ => (by cases h)⟩
  · rcases ahead with _ | row
    · rcases hfetch : f.fetch feed w with ⟨answer, feed', w'⟩
      rw [hasNext_of_answer hfetch, next_of_answer hfetch]
      rcases answer with e | _ | row
      · exact ⟨fun h => (by cases h), fun ⟨_, h⟩ => (by cases h)⟩
      · exact ⟨fun h => (by cases h), fun ⟨_, h⟩ => (by cases h)⟩
      · exact ⟨fun _ => ⟨row, rfl⟩, fun _ => rfl⟩
    · exact ⟨fun _ => ⟨row, rfl⟩, fun _ => rfl⟩

/-- **A cursor hands over faithfully what any feed produces.**  A reader makes any calls on a new
cursor over any feed.  What he is told is in the ledger of the cursor, what was asked of the feed in
this order is all that the cursor did to it, and the cursor is open and keeps a row exactly if this
follows from the ledger, which is in order.  At any time the cursor answers that there is a row
exactly if asking for it instead would give one. -/
theorem ledger_inOrder (f : Feed W σ) (acts : List Cursor.Act) (s : σ) (w : W) :
    ∃ entries s' w', ledger f acts (closed s) w = (entries, s', w') ∧
      (cursor f).calls acts (closed s) w = (entries.map Entry.said, s', w') ∧
      f.Gives (entries.flatMap Entry.asked) s w s'.feed w' ∧
      s'.isOpen = Ledger.isOpen entries ∧ s'.ahead.toList = Ledger.pending entries ∧
      Ledger.InOrder entries ∧
      (((cursor f).hasNext s' w').1 = .ok true ↔ ∃ row, ((cursor f).next s' w').1 = .ok row) := by
  obtain ⟨entries, s', w', hledger, hcalls, hgives, hs', hprefixes, hbefits⟩ :=
    ledger_befits f acts (Ledger.matches_closed s) w
  refine ⟨entries, s', w', hledger, hcalls, hgives, hs'.isOpen_eq.symm, hs'.pending_eq.symm,
    Ledger.inOrder_of_befits hbefits fun es hes => ?_, hasNext_eq_true_iff f s' w'⟩
  obtain ⟨t, ht⟩ := hprefixes es hes
  rw [List.nil_append] at ht
  rw [ht.pending_eq]
  refine ⟨ht.taken_append_ahead, ?_⟩
  cases t.ahead <;> simp

end Lookahead

/-- The feed that gives the answers in a list, one after the other, and has no row after these. -/
def Feed.ofAnswers : Feed Unit (List (Except Failure (Option Row))) where
  start answers _ := (.ok (), answers, ())
  fetch
    | [], _ => (.ok none, [], ())
    | answer :: rest, _ => (answer, rest, ())
  rewind answers _ := (.ok (), answers, ())
  close answers _ := (answers, ())

namespace Lookahead

/-- A row with a text where its schema has a number. -/
def misfit : Row := ⟨Plan.numbers, [some (.text "x")], none⟩

/-- A row that holds 5. -/
def five : Row := ⟨Plan.numbers, [some (.int 5)], none⟩

/-- The feed of a filter that finds the 5 behind the row in which it cannot compare the field. -/
def fives : Feed Unit (Lookahead Nat) :=
  Filter.feed (Predicate.test ⟨0, .eq, .int 5⟩) (cursor (RowList.feed [misfit, five]))
    (finite_cursor (RowList.finite_feed _))

/-- **Who is not told that there is a row may still get one.**  A feed that has no row at first is
asked again every time, and when it has one, the reader gets it although he was told that there is
none.  Likewise a filter fails on the first of two rows, and then hands out the second. -/
theorem ledger_resuming :
    (ledger Feed.ofAnswers [.start, .hasNext, .hasNext, .next]
        (closed [.ok none, .ok none, .ok (some five)]) ()).1 =
      [⟨.start (.ok ()), [.start (.ok ())]⟩, ⟨.hasNext (.ok false), [.fetch (.ok none)]⟩,
        ⟨.hasNext (.ok false), [.fetch (.ok none)]⟩,
        ⟨.next (.ok five), [.fetch (.ok (some five))]⟩] ∧
      ∃ e, (ledger fives [.start, .hasNext, .next] (closed (closed 0)) ()).1 =
        [⟨.start (.ok ()), [.start (.ok ())]⟩, ⟨.hasNext (.error e), [.fetch (.error e)]⟩,
          ⟨.next (.ok five), [.fetch (.ok (some five))]⟩] :=
  ⟨rfl, .error (.typeMismatch "STRING_TYPE" "INT_TYPE"), by cbv⟩

end Lookahead

end RowStore
