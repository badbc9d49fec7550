import RowStore.Proofs.Database.Reregistration
import RowStore.Proofs.Query.Outages

/-!
# The requests of a scan

A scan asks for a page only when its reader has all rows of the pages before it, and it asks for
nothing else.  This is a matter of what passes through the scan: the pages that it requests and
gives back, and what it replies to its reader.  All of it is recorded in the course of a run
(`FileScan.transcript`), in any world, also in one that refuses requests now and then.

What an event should be is said without the state of the scan.  Which page comes next follows from
the requests that were granted (`Events.granted`), and so do the rows that are there for the reader
(`Events.rows`); which of these he has follows from the replies (`Events.taken`).  An event has to
befit the events before it (`FileScan.Event.Befits`).

The progress of a scan agrees with the events (`ScanProgress.Matches`).  Requests and the giving
back of pages keep this, and so does the search for a row, by the recursion of
`ScanProgress.advance`.
-/

namespace RowStore

variable {W : Type}

/-! ## What passes through a scan -/

/-- Something that passes through a scan: a page that it requests, with the answer, a handle that it
gives back, and a reply to its reader. -/
inductive FileScan.Event where
  | request (page : PageId) (access : Access) (answer : Except Error (Handle Page))
  | release (h : Handle Page)
  | reply (reply : Cursor.Reply)

/-- A world that records what is requested of it and given back. -/
structure Recorded (W : Type) where
  world : W
  events : List FileScan.Event

namespace Recorded

instance [Storage W] : Storage (Recorded W) where
  heapFile table x := Storage.heapFile table x.world
  pageCount file x := Storage.pageCount file x.world
  request page access x :=
    let (answer, world) := Storage.request page access x.world
    (answer, ⟨world, x.events ++ [.request page access answer]⟩)
  release h x := ⟨Storage.release h x.world, x.events ++ [.release h]⟩

/-- Recording makes no difference. -/
def lockstep [Storage W] : Lockstep (Recorded W) W where
  Rel x w := x.world = w
  Broken _ _ := False
  heapFile_eq := by
    rintro x _ rfl table
    rfl
  pageCount_eq := by
    rintro x _ rfl file
    rfl
  request := by
    rintro x _ rfl page
    exact .inl ⟨_, _, _, rfl, rfl, rfl⟩
  release := by
    rintro x _ rfl h
    rfl
  broken_release h _ := h

lemma events_of_request [Storage W] {page : PageId} {access : Access} {x x' : Recorded W}
    {answer : Except Error (Handle Page)} (h : Storage.request page access x = (answer, x')) :
    x'.events = x.events ++ [.request page access answer] := by
  cases h
  rfl

end Recorded

/-- What passes through a scan while its reader makes several calls, after what is recorded
already. -/
def FileScan.transcript [Storage W] :
    List Cursor.Ask → FileScan → Recorded W → FileScan × Recorded W
  | [], s, x => (s, x)
  | call :: rest, s, x =>
    let (told, s, x) := cursor.replies [call] s x
    transcript rest s { x with events := x.events ++ told.map .reply }

/-! ## What follows from the events -/

namespace FileScan

namespace Event

/-- The handle that a request got. -/
def granted? : Event → Option (Handle Page)
  | request _ _ answer => answer.toOption
  | release _ => none
  | reply _ => none

/-- The error of a request that was refused. -/
def refused? : Event → Option Error
  | request _ _ (.error e) => some e
  | request _ _ (.ok _) => none
  | release _ => none
  | reply _ => none

/-- The reply to the reader. -/
def reply? : Event → Option Cursor.Reply
  | request _ _ _ => none
  | release _ => none
  | reply r => some r

/-- The row that the reader got. -/
def row? : Event → Option Row
  | request _ _ _ => none
  | release _ => none
  | reply (.hasNext _) => none
  | reply (.next answer) => answer.toOption

/-- Whether the reader is told that there is a row, which is not so once he took it. -/
def tells? : Event → Option Bool
  | request _ _ _ => none
  | release _ => none
  | reply (.hasNext answer) => some (answer.toOption.getD false)
  | reply (.next _) => some false

/-- The handles that are out after an event. -/
def handles (out : List (Handle Page)) : Event → List (Handle Page)
  | request _ _ answer => out ++ answer.toOption.toList
  | release h => out.erase h
  | reply _ => out

end Event

namespace Events

/-- The handles that were got. -/
def granted (es : List Event) : List (Handle Page) := es.filterMap Event.granted?

/-- The rows of the pages that were got. -/
def rows (es : List Event) : List Row := (granted es).flatMap fun h => h.content.rows

/-- The rows that the reader got. -/
def taken (es : List Event) : List Row := es.filterMap Event.row?

/-- The handles that are out. -/
def held (es : List Event) : List (Handle Page) := es.foldl Event.handles []

/-- Whether a row is kept for the reader: he was told that there is one, and did not take it. -/
def ready (es : List Event) : Bool := (es.filterMap Event.tells?).getLast?.getD false

/-- The error of the request that was just refused, if that is the last event. -/
def refusal? (es : List Event) : Option Error := es.getLast?.bind Event.refused?

/-! ### One more event -/

variable (es : List Event) (e : Event)

lemma granted_concat : granted (es ++ [e]) = granted es ++ e.granted?.toList := by
  rw [granted, List.filterMap_append]
  cases h : e.granted? <;> simp [h, granted]

lemma rows_concat :
    rows (es ++ [e]) = rows es ++ e.granted?.toList.flatMap fun h => h.content.rows := by
  rw [rows, granted_concat, List.flatMap_append, rows]

lemma taken_concat : taken (es ++ [e]) = taken es ++ e.row?.toList := by
  rw [taken, List.filterMap_append]
  cases h : e.row? <;> simp [h, taken]

lemma held_concat : held (es ++ [e]) = e.handles (held es) := by
  rw [held, List.foldl_concat, held]

lemma ready_concat : ready (es ++ [e]) = e.tells?.getD (ready es) := by
  rw [ready, ready, List.filterMap_append]
  cases h : e.tells? <;> simp [h]

end Events

open Events

/-- An event that befits a scan of a file with so many pages, given the events before it. -/
inductive Event.Befits (file : HeapFile) (count : ℕ) (es : List Event) : Event → Prop
  /-- The next page of the file is requested for reading when the reader has all rows of the pages
  before it, and while no page is held. -/
  | request (answer : Except Error (Handle Page)) (hlt : (granted es).length < count)
    (htaken : taken es = rows es) (hready : ready es = false) (hheld : held es = []) :
    Befits file count es
      (.request ⟨file.id, UInt32.ofNat (granted es).length⟩ .readOnly answer)
  /-- The page that is held is given back when the reader has all rows of it. -/
  | release (h : Handle Page) (htaken : taken es = rows es) (hheld : held es = [h]) :
    Befits file count es (.release h)
  /-- The reader is told that there is a row, or given it, if there is one that he does not have. -/
  | told (row : Row) (rest : List Row) (hrow : rows es = taken es ++ row :: rest) :
    Befits file count es (.reply (.hasNext (.ok true)))
  | given (row : Row) (rest : List Row) (hrow : rows es = taken es ++ row :: rest) :
    Befits file count es (.reply (.next (.ok row)))
  /-- There is none when he has all rows of all pages. -/
  | untold (hall : (granted es).length = count) (htaken : taken es = rows es) :
    Befits file count es (.reply (.hasNext (.ok false)))
  | exhausted (hall : (granted es).length = count) (htaken : taken es = rows es) :
    Befits file count es (.reply (.next (.error exhausted)))
  /-- A call fails if a request was just refused, and for that reason. -/
  | hasNext_failed (e : Error) (hrefusal : refusal? es = some e) :
    Befits file count es (.reply (.hasNext (.error (.error e))))
  | next_failed (e : Error) (hrefusal : refusal? es = some e) :
    Befits file count es (.reply (.next (.error (.error e))))

/-- Each event befits a scan after those before it. -/
inductive Events.Befitting (file : HeapFile) (count : ℕ) : List Event → Prop
  | nil : Befitting file count []
  | concat {es : List Event} {e : Event} (hes : Befitting file count es)
    (he : e.Befits file count es) : Befitting file count (es ++ [e])

end FileScan

/-! ## Progress -/

section

open FileScan FileScan.Events

/-- The progress of a scan agrees with the events. -/
structure ScanProgress.Matches (file : HeapFile) (count : ℕ) (es : List FileScan.Event)
    (p : ScanProgress) : Prop where
  befitting : Befitting file count es
  pageCount_eq : p.pageCount = count
  nextPage_eq : p.nextPage = (granted es).length
  nextPage_le : p.nextPage ≤ count
  held_eq : held es = p.handle?.toList
  rows_eq : rows es = taken es ++ p.pending

end

namespace ScanProgress

open FileScan FileScan.Events

variable {file : HeapFile} {count : ℕ} {es : List FileScan.Event} {p : ScanProgress}

lemma matches_ofPages (file : HeapFile) (count : ℕ) : (ofPages count).Matches file count [] :=
  ⟨.nil, rfl, rfl, Nat.zero_le _, rfl, rfl⟩

lemma usedUp_of_none (hcurrent : p.current = none) : p.UsedUp := by
  intro hd row rest hrow
  cases hcurrent.symm.trans hrow

/-- With no row ahead and none left on the page that is held, the reader has all rows. -/
lemma Matches.taken_eq (h : p.Matches file count es) (hused : p.UsedUp) (hahead : p.ahead = none) :
    taken es = rows es := by
  rw [h.rows_eq, pending, hused.rows_eq_nil, hahead]
  simp

lemma Matches.rows_of_ahead (h : p.Matches file count es) {row : Row}
    (hahead : p.ahead = some row) :
    rows es = taken es ++ row :: (p.current.map Prod.snd).getD [] := by
  rw [h.rows_eq, pending, hahead]
  rfl

/-- An event that befits takes the progress along: the rows that were to come and those of a page
that is got are given to the reader or still to come. -/
lemma Matches.concat (h : p.Matches file count es) {e : FileScan.Event} {p' : ScanProgress}
    (he : e.Befits file count es) (hpages : p'.pageCount = p.pageCount)
    (hnext : p'.nextPage = p.nextPage + e.granted?.toList.length) (hle : p'.nextPage ≤ count)
    (hheld : p'.handle?.toList = e.handles p.handle?.toList)
    (hpending : e.row?.toList ++ p'.pending =
      p.pending ++ e.granted?.toList.flatMap fun hd => hd.content.rows) :
    p'.Matches file count (es ++ [e]) where
  befitting := h.befitting.concat he
  pageCount_eq := hpages.trans h.pageCount_eq
  nextPage_eq := by rw [hnext, h.nextPage_eq, granted_concat, List.length_append]
  nextPage_le := hle
  held_eq := by rw [held_concat, h.held_eq, hheld]
  rows_eq := by
    rw [rows_concat, h.rows_eq, List.append_assoc, ← hpending, taken_concat, List.append_assoc]

/-- The page that is held is given back. -/
lemma Matches.release (h : p.Matches file count es) {hd : Handle Page}
    (hcurrent : p.current = some (hd, [])) (hahead : p.ahead = none) :
    Matches file count (es ++ [.release hd]) { p with current := none } := by
  have hused : p.UsedUp := by
    intro hd' row rest hrow
    cases hcurrent.symm.trans hrow
  have hhandle : p.handle?.toList = [hd] := by
    rw [handle?, hcurrent]
    rfl
  have hpending : p.pending = p.ahead.toList := by
    rw [pending, hcurrent]
    exact List.append_nil _
  refine h.concat (.release hd (h.taken_eq hused hahead) (h.held_eq.trans hhandle)) rfl rfl
    h.nextPage_le ?_ ?_
  · rw [hhandle]
    exact (List.erase_cons_head hd []).symm
  · rw [hpending]
    rfl

section

variable (h : p.Matches file count es) (hcurrent : p.current = none) (hahead : p.ahead = none)
  (hlt : p.nextPage < p.pageCount) (hready : ready es = false)

include h hcurrent hahead hlt hready

/-- The next page can be requested. -/
lemma Matches.befits_request (answer : Except Error (Handle Page)) :
    Event.Befits file count es
      (.request ⟨file.id, UInt32.ofNat p.nextPage⟩ .readOnly answer) := by
  have hheld : held es = [] := by
    rw [h.held_eq, handle?, hcurrent]
    rfl
  rw [h.nextPage_eq]
  refine .request answer ?_ (h.taken_eq (usedUp_of_none hcurrent) hahead) hready hheld
  rw [← h.nextPage_eq, ← h.pageCount_eq]
  exact hlt

/-- A request that is refused leaves the next page to be requested. -/
lemma Matches.refused (e : Error) :
    Matches file count
      (es ++ [.request ⟨file.id, UInt32.ofNat p.nextPage⟩ .readOnly (.error e)]) p :=
  h.concat (h.befits_request hcurrent hahead hlt hready _) rfl rfl h.nextPage_le
    (List.append_nil _).symm (List.append_nil _).symm

/-- A request that is granted leaves the rows of the page still to come. -/
lemma Matches.granted (hd : Handle Page) :
    Matches file count
      (es ++ [.request ⟨file.id, UInt32.ofNat p.nextPage⟩ .readOnly (.ok hd)])
      { p with nextPage := p.nextPage + 1, current := some (hd, hd.content.rows) } := by
  have hle : p.nextPage + 1 ≤ count := by
    rw [← h.pageCount_eq]
    exact hlt
  refine h.concat (h.befits_request hcurrent hahead hlt hready _) rfl rfl hle ?_ ?_
  · rw [handle?, handle?, hcurrent]
    rfl
  · rw [pending, pending, hcurrent, hahead]
    exact (List.append_nil _).symm

end

/-- The reader is told something, or given the row that is ahead. -/
lemma Matches.reply (h : p.Matches file count es) {reply : Cursor.Reply} {ahead : Option Row}
    (he : Event.Befits file count es (.reply reply))
    (hahead : p.ahead.toList = (Event.row? (.reply reply)).toList ++ ahead.toList) :
    Matches file count (es ++ [.reply reply]) { p with ahead := ahead } := by
  refine h.concat he rfl rfl h.nextPage_le rfl ?_
  show _ = p.pending ++ []
  rw [List.append_nil, pending, pending, hahead, List.append_assoc]

variable [Storage W]

/-- Giving back the page whose rows are used up, if one is held. -/
lemma Matches.letGo {x : Recorded W} (h : p.Matches file count x.events) (hused : p.UsedUp)
    (hahead : p.ahead = none) (hready : ready x.events = false) :
    Matches file count (p.letGo x).events { p with current := none } ∧
      ready (p.letGo x).events = false := by
  obtain ⟨pageCount, nextPage, _ | ⟨hd, _ | ⟨row, rest⟩⟩, ahead⟩ := p
  · exact ⟨h, hready⟩
  · refine ⟨h.release rfl hahead, ?_⟩
    show ready (x.events ++ [.release hd]) = false
    rw [ready_concat, Event.tells?]
    exact hready
  · exact absurd rfl (hused hd row rest)

/-- What a search for a row ends with: a row is ahead, or none is left in the file, or a request was
just refused. -/
inductive Found (count : ℕ) (es : List FileScan.Event) : Except Error Unit → ScanProgress → Prop
  | row {p : ScanProgress} {row : Row} (hahead : p.ahead = some row) : Found count es (.ok ()) p
  | ended {p : ScanProgress} (hahead : p.ahead = none) (hall : (granted es).length = count)
    (htaken : taken es = rows es) : Found count es (.ok ()) p
  | failed {p : ScanProgress} {e : Error} (hahead : p.ahead = none)
    (hrefusal : refusal? es = some e) : Found count es (.error e) p

/-- The search for a row goes on as long as pages are empty, so the induction is on that. -/
lemma Matches.advance {x : Recorded W} (h : p.Matches file count x.events)
    (hahead : p.ahead = none) (hready : ready x.events = false) :
    ∃ answer p' x', p.advance file x = (answer, p', x') ∧ p'.Matches file count x'.events ∧
      Found count x'.events answer p' := by
  fun_induction ScanProgress.advance file p x with
  | case1 p x hd row rest hcurrent =>
    refine ⟨_, _, x, rfl, ⟨h.befitting, h.pageCount_eq, h.nextPage_eq, h.nextPage_le, ?_, ?_⟩,
      .row rfl⟩
    · rw [h.held_eq, handle?, hcurrent]
      rfl
    · rw [h.rows_eq, pending, hcurrent, hahead]
      rfl
  | case2 p x x₁ hlt e x₂ hr hc =>
    obtain ⟨hlet, hready'⟩ := h.letGo hc hahead hready
    have hevents := Recorded.events_of_request hr
    refine ⟨_, _, x₂, rfl, ?_, .failed hahead ?_⟩
    · rw [hevents]
      exact hlet.refused rfl hahead hlt hready' e
    · rw [hevents, refusal?, List.getLast?_concat]
      rfl
  | case3 p x x₁ hlt hd x₂ hr hc ih =>
    obtain ⟨hlet, hready'⟩ := h.letGo hc hahead hready
    have hevents := Recorded.events_of_request hr
    refine ih ?_ hahead ?_
    · rw [hevents]
      exact hlet.granted rfl hahead hlt hready' hd
    · rw [hevents, ready_concat, Event.tells?]
      exact hready'
  | case4 p x x₁ hge hc =>
    obtain ⟨hlet, -⟩ := h.letGo hc hahead hready
    refine ⟨_, _, x₁, rfl, hlet, .ended hahead ?_ (hlet.taken_eq (usedUp_of_none rfl) hahead)⟩
    rw [← hlet.nextPage_eq]
    have hle := h.nextPage_le
    have hcount := h.pageCount_eq
    show p.nextPage = count
    omega

end ScanProgress

/-! ## Calls -/

namespace FileScan

open Events ScanProgress

variable [Storage W] {file : HeapFile} {count : ℕ}

/-- The state of a scan agrees with the events. -/
def Matches (file : HeapFile) (count : ℕ) (es : List Event) (s : FileScan) : Prop :=
  ∃ p, s = ⟨file, some p⟩ ∧ p.Matches file count es ∧ ready es = p.ahead.isSome

/-- Asking for a row finds one ahead or searches for one. -/
lemma hasNext_found {p : ScanProgress} {x : Recorded W} (h : p.Matches file count x.events)
    (hready : ready x.events = p.ahead.isSome) :
    ∃ answer p' x', hasNext ⟨file, some p⟩ x =
        (liftError (answer.map fun _ => p'.ahead.isSome), ⟨file, some p'⟩, x') ∧
      p'.Matches file count x'.events ∧ Found count x'.events answer p' := by
  rcases hahead : p.ahead with _ | row
  · rw [hahead] at hready
    obtain ⟨answer, p', x', hadvance, h', hfound⟩ := h.advance hahead hready
    exact ⟨answer, p', x', hasNext_of_advance hahead hadvance, h', hfound⟩
  · refine ⟨.ok (), p, x, ?_, h, .row hahead⟩
    simp only [hasNext, hahead]
    rfl

lemma matches_hasNext {s : FileScan} {x : Recorded W} (h : s.Matches file count x.events) :
    ∃ answer s' x', hasNext s x = (answer, s', x') ∧
      s'.Matches file count (x'.events ++ [.reply (.hasNext answer)]) := by
  obtain ⟨p, rfl, hp, hready⟩ := h
  obtain ⟨answer, p', x', hcall, hp', hfound⟩ := hasNext_found hp hready
  refine ⟨_, _, x', hcall, p', rfl, ?_, ?_⟩
  · refine hp'.reply ?_ rfl
    cases hfound with
    | @row _ row hahead =>
      rw [hahead]
      exact .told row _ (hp'.rows_of_ahead hahead)
    | ended hahead hall htaken =>
      rw [hahead]
      exact .untold hall htaken
    | failed hahead hrefusal => exact .hasNext_failed _ hrefusal
  · rw [ready_concat]
    cases hfound with
    | row hahead => rfl
    | ended hahead hall htaken => rfl
    | failed hahead hrefusal =>
      rw [hahead]
      rfl

lemma matches_next {s : FileScan} {x : Recorded W} (h : s.Matches file count x.events) :
    ∃ answer s' x', next s x = (answer, s', x') ∧
      s'.Matches file count (x'.events ++ [.reply (.next answer)]) := by
  obtain ⟨p, rfl, hp, hready⟩ := h
  obtain ⟨answer, p', x', hcall, hp', hfound⟩ := hasNext_found hp hready
  cases hfound with
  | @row _ row hahead =>
    refine ⟨.ok row, ⟨file, some { p' with ahead := none }⟩, x', ?_, _, rfl,
      hp'.reply (.given row _ (hp'.rows_of_ahead hahead)) ?_, ready_concat _ _⟩
    · rw [next, hcall]
      simp only [hahead, Except.map, liftError]
    · rw [hahead]
      rfl
  | ended hahead hall htaken =>
    refine ⟨.error exhausted, ⟨file, some p'⟩, x', ?_, p', rfl,
      hp'.reply (.exhausted hall htaken) rfl, ?_⟩
    · rw [next, hcall]
      simp only [hahead, Except.map, liftError]
    · rw [ready_concat, hahead]
      rfl
  | @failed _ e hahead hrefusal =>
    refine ⟨.error (.error e), ⟨file, some p'⟩, x', ?_, p', rfl,
      hp'.reply (.next_failed e hrefusal) rfl, ?_⟩
    · rw [next, hcall]
      rfl
    · rw [ready_concat, hahead]
      rfl

/-- One call, and what is recorded of it. -/
lemma matches_reply (call : Cursor.Ask) {s : FileScan} {x : Recorded W}
    (h : s.Matches file count x.events) :
    ∃ told s' x', cursor.replies [call] s x = (told, s', x') ∧
      s'.Matches file count (x'.events ++ told.map .reply) := by
  cases call with
  | hasNext =>
    obtain ⟨answer, s', x', hcall, h'⟩ := matches_hasNext h
    refine ⟨[.hasNext answer], s', x', ?_, h'⟩
    simp only [Cursor.replies, cursor, hcall]
  | next =>
    obtain ⟨answer, s', x', hcall, h'⟩ := matches_next h
    refine ⟨[.next answer], s', x', ?_, h'⟩
    simp only [Cursor.replies, cursor, hcall]

/-- By induction on the calls: what one call preserves, all of them do. -/
lemma matches_transcript (asks : List Cursor.Ask) {s : FileScan} {x : Recorded W}
    (h : s.Matches file count x.events) :
    ∃ s' x', transcript asks s x = (s', x') ∧ s'.Matches file count x'.events := by
  induction asks generalizing s x with
  | nil => exact ⟨s, x, rfl, h⟩
  | cons call rest ih =>
    obtain ⟨told, s₁, x₁, hcall, h₁⟩ := matches_reply call h
    obtain ⟨s', x', hrest, h'⟩ := ih (x := { x₁ with events := x₁.events ++ told.map .reply }) h₁
    refine ⟨s', x', ?_, h'⟩
    rw [transcript, hcall]
    exact hrest

/-- What is requested and given back is not recorded as a reply. -/
lemma closed_replies (told : List Cursor.Reply) :
    Storage.Closed fun x : Recorded W => x.events.filterMap Event.reply? = told := by
  have hconcat : ∀ {es : List Event} {e : Event}, es.filterMap Event.reply? = told →
      e.reply? = none → (es ++ [e]).filterMap Event.reply? = told := by
    intro es e hes he
    rw [List.filterMap_append, List.filterMap_cons_none he, List.filterMap_nil, List.append_nil,
      hes]
  exact ⟨fun hx _ => hconcat hx rfl, fun hx _ => hconcat hx rfl⟩

/-- A call replies in a world that does not record it as it does in one that does. -/
lemma reply_recorded {call : Cursor.Ask} {s s' : FileScan} {x x' : Recorded W}
    {told : List Cursor.Reply} (h : cursor.replies [call] s x = (told, s', x')) :
    cursor.replies [call] s x.world = (told, s', x'.world) ∧
      x'.events.filterMap Event.reply? = x.events.filterMap Event.reply? := by
  cases call with
  | hasNext =>
    have hkept := (closed_replies _).act_file .hasNext s (w := x) rfl
    obtain ⟨answer, s₁, x₁, w₁, hx, hw, rfl⟩ | ⟨e, s₁, x₁, -, hbroken⟩ :=
      Lockstep.hasNext_file (L := Recorded.lockstep) s x x.world rfl
    · simp only [Cursor.act, Cursor.replies, cursor, hx, hw] at h hkept ⊢
      cases h
      exact ⟨rfl, hkept⟩
    · exact absurd hbroken id
  | next =>
    have hkept := (closed_replies _).act_file .next s (w := x) rfl
    obtain ⟨answer, s₁, x₁, w₁, hx, hw, rfl⟩ | ⟨e, s₁, x₁, -, hbroken⟩ :=
      Lockstep.next_file (L := Recorded.lockstep) s x x.world rfl
    · simp only [Cursor.act, Cursor.replies, cursor, hx, hw] at h hkept ⊢
      cases h
      exact ⟨rfl, hkept⟩
    · exact absurd hbroken id

/-- The replies to several calls are the reply to the first one and those to the others. -/
lemma replies_cons {call : Cursor.Ask} {s s₁ : FileScan} {w w₁ : W} {told : List Cursor.Reply}
    (h : cursor.replies [call] s w = (told, s₁, w₁)) (rest : List Cursor.Ask) :
    cursor.replies (call :: rest) s w =
      (told ++ (cursor.replies rest s₁ w₁).1, (cursor.replies rest s₁ w₁).2) := by
  cases call with
  | hasNext =>
    simp only [Cursor.replies] at h ⊢
    cases h
    rfl
  | next =>
    simp only [Cursor.replies] at h ⊢
    cases h
    rfl

/-- The replies in a transcript are those of the scan in a world that does not record them. -/
lemma replies_transcript (asks : List Cursor.Ask) {s s' : FileScan} {x x' : Recorded W}
    (h : transcript asks s x = (s', x')) :
    ∃ told, cursor.replies asks s x.world = (told, s', x'.world) ∧
      x'.events.filterMap Event.reply? = x.events.filterMap Event.reply? ++ told := by
  induction asks generalizing s x with
  | nil =>
    cases h
    exact ⟨[], rfl, (List.append_nil _).symm⟩
  | cons call rest ih =>
    rcases hcall : cursor.replies [call] s x with ⟨told, s₁, x₁⟩
    rw [transcript, hcall] at h
    obtain ⟨hcall', hkept⟩ := reply_recorded hcall
    obtain ⟨later, hrest, hlater⟩ := ih h
    refine ⟨told ++ later, ?_, ?_⟩
    · rw [replies_cons hcall', hrest]
    · rw [hlater, List.filterMap_append, hkept, List.filterMap_map, List.append_assoc]
      congr 2
      exact List.filterMap_some

namespace Events

variable {es : List Event}

lemma Befitting.of_prefix (h : Befitting file count es) {before : List Event}
    (hbefore : before <+: es) : Befitting file count before := by
  induction h with
  | nil =>
    rw [List.prefix_nil.1 hbefore]
    exact .nil
  | concat hbefitting he ih =>
    rcases List.prefix_concat_iff.1 hbefore with rfl | hbefore
    · exact hbefitting.concat he
    · exact ih hbefore

lemma Befitting.befits (h : Befitting file count es) {before rest : List Event} {e : Event}
    (hes : es = before ++ e :: rest) : e.Befits file count before := by
  induction h generalizing rest with
  | nil => simp at hes
  | concat hbefitting he ih =>
    rcases rest.eq_nil_or_concat' with rfl | ⟨rest, last, rfl⟩
    · obtain ⟨rfl, hlast⟩ := List.append_inj' hes rfl
      cases hlast
      exact he
    · rw [← List.cons_append, ← List.append_assoc] at hes
      exact ih (List.append_inj' hes rfl).1

lemma Befitting.length_held_le (h : Befitting file count es) : (held es).length ≤ 1 := by
  induction h with
  | nil => exact Nat.zero_le 1
  | concat hbefitting he ih =>
    rw [held_concat]
    cases he with
    | request answer hlt htaken hready hheld =>
      rw [hheld]
      exact Option.length_toList_le
    | release h htaken hheld =>
      rw [hheld, Event.handles, List.erase_cons_head]
      exact Nat.zero_le 1
    | _ => exact ih

/-- A request befits only if it is for the page after those that were got. -/
lemma Befitting.request_eq (h : Befitting file count es) (hcount : count ≤ PageLayout.maxPages)
    {before rest : List Event} {page : PageId} {access : Access}
    {answer : Except Error (Handle Page)}
    (hes : es = before ++ .request page access answer :: rest) :
    page.table = file.id ∧ page.number.toNat = (granted before).length := by
  cases h.befits hes with
  | request _ hlt =>
    refine ⟨rfl, UInt32.toNat_ofNat_of_lt' (Nat.lt_of_lt_of_le hlt (Nat.le_trans hcount ?_))⟩
    decide

/-- What the requests and replies of a scan come to, from its first page on. -/
structure InOrder (file : HeapFile) (count : ℕ) (es : List Event) : Prop where
  /-- Every event befits the scan at the time. -/
  befits : ∀ before e rest, es = before ++ e :: rest → e.Befits file count before
  /-- At any time, at most one page is held. -/
  length_held_le : ∀ before, before <+: es → (held before).length ≤ 1
  /-- Of two requests the later one is for the same page exactly if it repeats one that was refused,
  with none granted in between, and otherwise for a later page. -/
  ordered : ∀ before page access answer middle page' access' answer' rest,
    es = before ++ .request page access answer ::
      (middle ++ .request page' access' answer' :: rest) →
    page.number ≤ page'.number ∧
      (page' = page ↔ granted (.request page access answer :: middle) = [])

lemma Befitting.inOrder (h : Befitting file count es) (hcount : count ≤ PageLayout.maxPages) :
    InOrder file count es where
  befits before e rest := h.befits
  length_held_le before hbefore := (h.of_prefix hbefore).length_held_le
  ordered before page access answer middle page' access' answer' rest hes := by
    have hsplit : es = (before ++ .request page access answer :: middle) ++
        .request page' access' answer' :: rest := by
      rw [hes, List.append_assoc, List.cons_append]
    obtain ⟨htable, hnumber⟩ := h.request_eq hcount hes
    obtain ⟨htable', hnumber'⟩ := h.request_eq hcount hsplit
    have hlength : page'.number.toNat =
        page.number.toNat + (granted (.request page access answer :: middle)).length := by
      rw [hnumber', hnumber, granted, List.filterMap_append, List.length_append]
      rfl
    have hsame : page' = page ↔ page'.number.toNat = page.number.toNat := by
      rw [UInt32.toNat_inj]
      obtain ⟨table, number⟩ := page
      obtain ⟨table', number'⟩ := page'
      obtain rfl : table' = table := htable'.trans htable.symm
      rw [PageId.mk.injEq, eq_self, true_and]
    refine ⟨?_, ?_⟩
    · rw [UInt32.le_iff_toNat_le, hlength]
      exact Nat.le_add_right _ _
    · rw [hsame, hlength, Nat.add_eq_left, List.length_eq_zero_iff]

end Events

/-! ## Runs -/

/-- A scan is opened, or goes back to its first page, and the file has so many pages then. -/
inductive Begins (count : ℕ) (s : FileScan) (w : W) (s' : FileScan) (w' : W) : Prop
  | start (hcount : Storage.pageCount s.file w = .ok count)
    (h : FileScan.start s w = (.ok (), s', w'))
  | rewind (hcount : Storage.pageCount s.file (s.letGo w) = .ok count)
    (h : FileScan.rewind s w = (.ok (), s', w'))

lemma Begins.eq_ofPages {s s' : FileScan} {w w' : W} (h : Begins count s w s' w') :
    s' = ⟨s.file, some (ofPages count)⟩ := by
  cases h with
  | start hcount h =>
    rw [start_of_ok hcount] at h
    cases h
    rfl
  | rewind hcount h =>
    obtain ⟨file, _ | p⟩ := s
    · cases h
    · have hstart : FileScan.start ⟨file, none⟩ (p.letGo w) = (.ok (), s', w') := h
      have hpages : Storage.pageCount file (p.letGo w) = .ok count := hcount
      rw [start_of_ok (s := ⟨file, none⟩) hpages] at hstart
      cases hstart
      rfl

/-- **A scan requests every page once, in order, and not before it is needed.**  A scan of a file is
opened, or goes back, and its reader asks whether there is a row and takes rows, in any order.  In
whatever way the world grants and refuses requests, each of them is for reading, and for the page of
the file that comes after those that were got; so a request is repeated while it is refused, and a
page that was got is not requested again.  When a page is requested, the reader has all rows of the
pages before it, none is kept for him, and no page is held; when all pages were got, none is
requested any more.  At no time more than one page is held. -/
theorem transcript_inOrder {s s₁ : FileScan} {w w₁ : W} (hbegins : Begins count s w s₁ w₁)
    (hcount : count ≤ PageLayout.maxPages) (asks : List Cursor.Ask) :
    ∃ s' x, transcript asks s₁ ⟨w₁, []⟩ = (s', x) ∧
      cursor.replies asks s₁ w₁ = (x.events.filterMap Event.reply?, s', x.world) ∧
      held x.events = s'.handle?.toList ∧
      ready x.events = (s'.progress.bind ScanProgress.ahead).isSome ∧
      InOrder s.file count x.events := by
  have hmatches : s₁.Matches s.file count (Recorded.mk w₁ []).events :=
    ⟨_, hbegins.eq_ofPages, matches_ofPages s.file count, rfl⟩
  obtain ⟨s', x, htranscript, p, rfl, hp, hready⟩ := matches_transcript asks hmatches
  obtain ⟨told, hreplies, htold⟩ := replies_transcript asks htranscript
  rw [List.filterMap_nil, List.nil_append] at htold
  exact ⟨_, x, htranscript, htold ▸ hreplies, hp.held_eq, hready, hp.befitting.inOrder hcount⟩

/-- The first request is refused and repeated, in a file of two pages and three rows. -/
theorem transcript_inOrder_crowded :
    Begins 2 (closed Database.numbersOnDisk) Database.crowded
        ⟨Database.numbersOnDisk, some (ofPages 2)⟩ Database.crowded ∧
      2 ≤ PageLayout.maxPages ∧
      ∃ s' x, transcript [.hasNext, .hasNext, .next, .next, .next, .hasNext]
          ⟨Database.numbersOnDisk, some (ofPages 2)⟩ ⟨Database.crowded, []⟩ = (s', x) ∧
        InOrder Database.numbersOnDisk 2 x.events := by
  have hbegins : Begins 2 (closed Database.numbersOnDisk) Database.crowded
      ⟨Database.numbersOnDisk, some (ofPages 2)⟩ Database.crowded := .start rfl rfl
  obtain ⟨s', x, htranscript, -, -, -, horder⟩ := transcript_inOrder hbegins (by decide)
    [.hasNext, .hasNext, .next, .next, .next, .hasNext]
  exact ⟨hbegins, by decide, s', x, htranscript, horder⟩

example : (transcript [.hasNext, .hasNext, .next, .next, .next, .hasNext]
    ⟨Database.numbersOnDisk, some (ofPages 2)⟩ ⟨Database.crowded, []⟩).2.events.filterMap (fun
      | .request page _ answer => some (page.number, answer.isOk)
      | _ => none) = [(0, false), (0, true), (1, true)] := by cbv

end FileScan

end RowStore
