import RowStore.Proofs.Query.Operators

/-!
# What scans play

A scan of a heap file plays the rows of its pages, in the order of pages and slots
(`Service.Stores.plays_file`), and so does the scan of a table that is registered with a file of
its shape (`Service.Stores.opensAlike_table`).

The rows that are left to a scan are the one that is ready, those that follow it on the page that is
held, and those of the pages that were not requested yet.  Making a row ready takes it from the
other two (`Supply.advance`); a request that is refused leaves all of them, although the page that
was held is given back before.

A scan only needs the pages of one file, so what it does is worked out from a `Supply` of these,
whatever may become of other tables.  A service supplies each of its files.
-/

namespace RowStore

variable {W : Type} [Storage W] {v : Service W}

/-- The handle that a scan of a file holds. -/
def Footprint.file : Footprint FileScan where
  need := 1
  held s := (s.handle?.toList : Multiset (Handle Page))
  card_held s := by
    rw [Multiset.coe_card]
    exact Option.length_toList_le

/-- The handle that a scan of a table holds. -/
def Footprint.table : Footprint (Option FileScan) where
  need := 1
  held s := ((s.bind FileScan.handle?).toList : Multiset (Handle Page))
  card_held s := by
    rw [Multiset.coe_card]
    exact Option.length_toList_le

/-- The rows that a scan has not made ready yet. -/
def ScanProgress.left (pages : List Page) (p : ScanProgress) : List Row :=
  (p.current.map Prod.snd).getD [] ++ (pages.drop p.nextPage).flatMap Page.rows

lemma ScanProgress.UsedUp.rows_eq_nil {p : ScanProgress} (hused : p.UsedUp) :
    (p.current.map Prod.snd).getD [] = [] := by
  rcases hcurrent : p.current with _ | ⟨h, _ | ⟨row, rest⟩⟩
  · rfl
  · rfl
  · exact absurd hcurrent (hused h row rest)

/-- Giving back the page that a scan holds, if it holds one. -/
lemma FileScan.letGo_of_release {Good : Option (Handle Page) → W → Prop}
    (hrelease : ∀ h w, Good (some h) w → Good none (Storage.release h w)) {s : FileScan} {w : W}
    (hw : Good s.handle? w) : Good none (s.letGo w) := by
  obtain ⟨file, _ | ⟨pageCount, nextPage, _ | ⟨h, rows⟩, ahead⟩⟩ := s
  · exact hw
  · exact hw
  · exact hrelease h w hw

/-! ## Supplies -/

/-- How a scan is supplied with the pages of a file: a world is in order while the scan holds a page
or none, and of a world in which a request was just refused something more may be known. -/
structure Supply (W : Type) [Storage W] (file : HeapFile) (pages : List Page) where
  /-- The world is in order, with this page held. -/
  Good : Option (Handle Page) → W → Prop
  /-- What is known when a request was refused with an error. -/
  Refused : Error → W → Prop
  pageCount : ∀ {held w}, Good held w → Storage.pageCount file w = .ok pages.length
  request : ∀ {w n}, Good none w → (hn : n < pages.length) →
    (∃ e w', Storage.request ⟨file.id, UInt32.ofNat n⟩ .readOnly w = (.error e, w') ∧
        Refused e w' ∧ Good none w') ∨
      ∃ h w', Storage.request ⟨file.id, UInt32.ofNat n⟩ .readOnly w = (.ok h, w') ∧
        h.content = pages[n] ∧ Good (some h) w'
  release : ∀ {h w}, Good (some h) w → Good none (Storage.release h w)

/-- What is left of the rows in a state of a scan. -/
def FileScan.At (file : HeapFile) (pages : List Page) (answers : List Answer) (s : FileScan) :
    Prop :=
  ∃ p, s = ⟨file, some p⟩ ∧ p.pageCount = pages.length ∧
    answers = Answers.ofRows (p.ahead.toList ++ p.left pages)

namespace Supply

variable {file : HeapFile} {pages : List Page} (S : Supply W file pages)

/-- A call on the scan was refused: this is the answer, and the world after it. -/
def Refusal {α : Type} (answer : Except Failure α) (w : W) : Prop :=
  ∃ e, S.Refused e w ∧ answer = .error (.error e)

variable {S}

lemma letGo {p : ScanProgress} {w : W} (hw : S.Good p.handle? w) : S.Good none (p.letGo w) :=
  FileScan.letGo_of_release (s := ⟨file, some p⟩) (fun _ _ => S.release) hw

/-- Making a row ready: a request is refused and nothing is lost, or the first of the rows that are
left is ready now, if there is one. -/
lemma advance {p : ScanProgress} {w : W} (hcount : p.pageCount = pages.length)
    (hnone : p.ahead = none) (hw : S.Good p.handle? w) :
    ∃ answer p' w', p.advance file w = (answer, p', w') ∧ p'.pageCount = pages.length ∧
      S.Good p'.handle? w' ∧
      ((∃ e, S.Refused e w' ∧ answer = .error e ∧ p'.ahead = none ∧
          p'.left pages = p.left pages) ∨
        answer = .ok () ∧ p'.ahead.toList ++ p'.left pages = p.left pages ∧
          (p'.ahead = none → p.left pages = [])) := by
  fun_induction ScanProgress.advance file p w with
  | case1 p w h row rest hc =>
    refine ⟨_, _, w, rfl, hcount, ?_, .inr ⟨rfl, ?_, fun h => by cases h⟩⟩
    · simpa [ScanProgress.handle?, hc] using hw
    · simp [ScanProgress.left, hc]
  | case2 p w w₁ hlt e w₂ hr hc =>
    have hempty := ScanProgress.UsedUp.rows_eq_nil hc
    obtain ⟨e', w', hreq, he, hgood⟩ | ⟨h, w', hreq, -⟩ :=
      S.request (letGo hw) (show p.nextPage < pages.length from hcount ▸ hlt)
    · cases hr.symm.trans hreq
      refine ⟨_, _, w₂, rfl, hcount, hgood, .inl ⟨e, he, rfl, hnone, ?_⟩⟩
      simp [ScanProgress.left, hempty]
    · cases hr.symm.trans hreq
  | case3 p w w₁ hlt h w₂ hr hc ih =>
    have hempty := ScanProgress.UsedUp.rows_eq_nil hc
    have hpage : p.nextPage < pages.length := hcount ▸ hlt
    obtain ⟨e', w', hreq, -⟩ | ⟨h', w', hreq, hcontent, hgood⟩ := S.request (letGo hw) hpage
    · cases hr.symm.trans hreq
    · cases hr.symm.trans hreq
      have hleft : ScanProgress.left pages { p with
          nextPage := p.nextPage + 1, current := some (h, h.content.rows) } = p.left pages := by
        rw [ScanProgress.left, ScanProgress.left, hempty, List.drop_eq_getElem_cons hpage,
          List.flatMap_cons, hcontent]
        rfl
      rw [← hleft]
      exact ih hcount hnone hgood
  | case4 p w w₁ hlt hc =>
    have hempty := ScanProgress.UsedUp.rows_eq_nil hc
    have hleft : p.left pages = [] := by
      rw [ScanProgress.left, hempty, List.drop_eq_nil_of_le (by omega)]
      rfl
    refine ⟨_, _, _, rfl, hcount, letGo hw, .inr ⟨rfl, ?_, fun _ => hleft⟩⟩
    rw [hleft, hnone, ScanProgress.left, List.drop_eq_nil_of_le (by simp only; omega)]
    rfl

/-- Asking a scan for a row either finds one ready or makes one ready. -/
lemma hasNext {answers : List Answer} {s : FileScan} (hs : FileScan.At file pages answers s)
    {w : W} (hw : S.Good s.handle? w) :
    ∃ answer s' w', FileScan.hasNext s w = (answer, s', w') ∧ S.Good s'.handle? w' ∧
      (S.Refusal answer w' ∧ FileScan.At file pages answers s' ∨
        answer = (Answers.ask answers).1 ∧ FileScan.At file pages (Answers.ask answers).2 s' ∧
          ((answers = [] ∧ ∃ p, s' = ⟨file, some p⟩ ∧ p.ahead = none) ∨
            ∃ p row, s' = ⟨file, some p⟩ ∧ p.ahead = some row ∧ p.pageCount = pages.length ∧
              answers = .ok row :: Answers.ofRows (p.left pages))) := by
  obtain ⟨p, rfl, hcount, rfl⟩ := hs
  rcases hahead : p.ahead with _ | row
  · obtain ⟨answer, p', w', hadv, hcount', hgood, hpost⟩ := advance hcount hahead hw
    refine ⟨_, _, w', FileScan.hasNext_of_advance hahead hadv, hgood, ?_⟩
    rcases hpost with ⟨e, he, rfl, hnone, hleft⟩ | ⟨rfl, hleft, hdone⟩
    · exact .inl ⟨⟨e, he, rfl⟩, p', rfl, hcount', by rw [hnone, hleft]⟩
    · rw [Option.toList_none, List.nil_append, ← hleft]
      rcases hahead' : p'.ahead with _ | row
      · have hnil : p'.left pages = [] := by
          rw [hdone hahead', hahead'] at hleft
          exact hleft
        rw [hnil]
        exact .inr ⟨rfl, ⟨p', rfl, hcount', by rw [hahead', hnil]; rfl⟩,
          .inl ⟨rfl, p', rfl, hahead'⟩⟩
      · exact .inr ⟨rfl, ⟨p', rfl, hcount', by rw [hahead']; rfl⟩,
          .inr ⟨p', row, rfl, hahead', hcount', rfl⟩⟩
  · refine ⟨.ok true, _, w, ?_, hw, .inr ⟨rfl, ⟨p, rfl, hcount, by rw [hahead]; rfl⟩,
      .inr ⟨p, row, rfl, hahead, hcount, rfl⟩⟩⟩
    simp only [FileScan.hasNext, hahead]

/-- Taking a row from a scan takes the first of those that are left. -/
lemma next {answers : List Answer} {s : FileScan} (hs : FileScan.At file pages answers s) {w : W}
    (hw : S.Good s.handle? w) :
    ∃ answer s' w', FileScan.next s w = (answer, s', w') ∧ S.Good s'.handle? w' ∧
      (S.Refusal answer w' ∧ FileScan.At file pages answers s' ∨
        answer = (Answers.take answers).1 ∧
          FileScan.At file pages (Answers.take answers).2 s') := by
  obtain ⟨answer, s', w', heq, hgood, hpost⟩ := hasNext hs hw
  rcases hpost with ⟨⟨e, he, rfl⟩, hs'⟩ | ⟨rfl, hs', ⟨rfl, p, rfl, hnone⟩ | hready⟩
  · refine ⟨.error (.error e), s', w', ?_, hgood, .inl ⟨⟨e, he, rfl⟩, hs'⟩⟩
    simp only [FileScan.next, heq]
  · have hask : FileScan.hasNext s w = (.ok false, ⟨file, some p⟩, w') := heq
    refine ⟨.error exhausted, ⟨file, some p⟩, w', ?_, hgood, .inr ⟨rfl, hs'⟩⟩
    simp only [FileScan.next, hask, hnone]
  · obtain ⟨p, row, rfl, hahead, hcount, rfl⟩ := hready
    have hask : FileScan.hasNext s w = (.ok true, ⟨file, some p⟩, w') := heq
    refine ⟨.ok row, ⟨file, some { p with ahead := none }⟩, w', ?_, hgood,
      .inr ⟨rfl, _, rfl, hcount, rfl⟩⟩
    simp only [FileScan.next, hask, hahead]

/-- Opening a scan, or opening it again, goes to the first page. -/
lemma start {s : FileScan} (hs : s.file = file) {w : W} (hw : S.Good s.handle? w) :
    ∃ w', FileScan.start s w =
        (.ok (), ⟨file, some (ScanProgress.ofPages pages.length)⟩, w') ∧ S.Good none w' := by
  obtain ⟨file', progress⟩ := s
  obtain rfl : file' = file := hs
  refine ⟨_, ?_, FileScan.letGo_of_release (fun _ _ => S.release) hw⟩
  simp only [FileScan.start, S.pageCount hw]

end Supply

/-! ## Files -/

/-- A file is registered under its id, and these are its pages. -/
structure Service.Stores (v : Service W) (file : HeapFile) (pages : List Page) : Prop where
  registered : v.catalog.heapFile file.id = .ok file
  pageCount : file.pageCount v.disk = .ok pages.length
  readPage : ∀ n (h : n < pages.length),
    file.readPage v.disk ⟨file.id, UInt32.ofNat n⟩ = .ok pages[n]

namespace Service

lemma release_held {h : Handle Page} {R : Multiset (Handle Page)} {w : W}
    (hw : v.Good (((some h).toList : Multiset (Handle Page)) + R) w) :
    v.Good (((none : Option (Handle Page)).toList : Multiset (Handle Page)) + R)
      (Storage.release h w) := by
  rw [Option.toList_some, Multiset.coe_singleton, Multiset.singleton_add] at hw
  exact (Multiset.zero_add R).symm ▸ v.release hw

lemma letGo_scan {s : FileScan} {R : Multiset (Handle Page)} {w : W}
    (hw : v.Good (Footprint.file.held s + R) w) : v.Good R (s.letGo w) := by
  let Good (held : Option (Handle Page)) (w : W) : Prop :=
    v.Good ((held.toList : Multiset (Handle Page)) + R) w
  have hrelease : ∀ h w, Good (some h) w → Good none (Storage.release h w) :=
    fun _ _ => release_held
  have hgood : Good none (s.letGo w) := FileScan.letGo_of_release hrelease hw
  exact Multiset.zero_add R ▸ hgood

namespace Stores

variable {file : HeapFile} {pages : List Page}

/-- A service supplies a scan of a file that it stores, next to other handles that are out. -/
def supply (hfile : v.Stores file pages) {R : Multiset (Handle Page)} (hR : 1 + R.card ≤ v.limit) :
    Supply W file pages where
  Good held w := v.Good ((held.toList : Multiset (Handle Page)) + R) w
  Refused e _ := v.Refuses e
  pageCount hw := (v.pageCount_eq hw file hfile.registered).trans hfile.pageCount
  request {w n} hw hn := by
    have hgood : v.Good R w := Multiset.zero_add R ▸ hw
    obtain ⟨e, w', hreq, he, hw'⟩ | ⟨h, w', hreq, hcontent, hw'⟩ :=
      v.request hgood (by omega) hfile.registered (hfile.readPage n hn)
    · exact .inl ⟨e, w', hreq, he, (Multiset.zero_add R).symm ▸ hw'⟩
    · refine .inr ⟨h, w', hreq, hcontent, ?_⟩
      rwa [Option.toList_some, Multiset.coe_singleton, Multiset.singleton_add]
  release := release_held

/-- Opening a scan, or opening it again, goes to the first page. -/
lemma start (hfile : v.Stores file pages) {s : FileScan} (hs : s.file = file) :
    v.Runs .file FileScan.start s fun answer s' =>
      answer = .ok () ∧ s' = ⟨file, some (ScanProgress.ofPages pages.length)⟩ := by
  intro R w hR hw
  obtain ⟨w', hstart, hw'⟩ := Supply.start (S := hfile.supply hR) hs hw
  exact ⟨_, _, w', hstart, ⟨rfl, rfl⟩, hw'⟩

/-- **A scan of a file plays the rows of its pages in order.** -/
theorem plays_file (hfile : v.Stores file pages) :
    v.Plays .file FileScan.cursor (Answers.ofRows (pages.flatMap Page.rows))
      (FileScan.At file pages) where
  hasNext {answers s} hs := by
    intro R w hR hw
    obtain ⟨answer, s', w', heq, hw', hpost⟩ := Supply.hasNext (S := hfile.supply hR) hs hw
    refine ⟨answer, s', w', heq, ?_, hw'⟩
    rcases hpost with hrefused | ⟨hanswer, hs', hready⟩
    · exact .inl hrefused
    · refine .inr ⟨hanswer, hs', ?_⟩
      rintro row rest rfl w
      obtain ⟨h, -⟩ | ⟨p, row', rfl, hahead, hcount, h⟩ := hready
      · cases h
      · cases h
        refine ⟨⟨file, some { p with ahead := none }⟩, ?_, rfl, _, rfl, hcount, rfl⟩
        simp only [FileScan.cursor, FileScan.next, FileScan.hasNext, hahead]
  next {answers s} hs := by
    intro R w hR hw
    obtain ⟨answer, s', w', heq, hw', hpost⟩ := Supply.next (S := hfile.supply hR) hs hw
    exact ⟨answer, s', w', heq, hpost, hw'⟩
  rewind {answers s} hs := by
    intro R w hR hw
    obtain ⟨p, rfl, -, -⟩ := hs
    obtain ⟨w', hstart, hw'⟩ := Supply.start (S := hfile.supply hR) (s := ⟨file, none⟩) rfl
      (Supply.letGo (S := hfile.supply hR) (p := p) hw)
    exact ⟨.ok (), _, w', hstart, ⟨rfl, _, rfl, rfl, rfl⟩, hw'⟩

/-- Opening a scan and draining it gives the rows, if no request is refused. -/
lemma scan_of_served (hfile : v.Stores file pages) (hserved : ∀ e, ¬ v.Refuses e)
    {others : Multiset (Handle Page)} (hroom : 1 + others.card ≤ v.limit) {w : W}
    (hw : v.Good others w) : ∃ s₁ w₁ s₂ w₂,
      FileScan.start (FileScan.closed file) w = (.ok (), s₁, w₁) ∧
        FileScan.cursor.drain FileScan.finite_cursor s₁ w₁ =
          (.ok (pages.flatMap Page.rows), s₂, w₂) := by
  have hclosed : v.Good (Footprint.file.held (FileScan.closed file) + others) w :=
    (Multiset.zero_add others).symm ▸ hw
  have hopen := hfile.start (s := FileScan.closed file) rfl
  obtain ⟨answer, s₁, w₁, hstart, ⟨rfl, rfl⟩, hw₁⟩ := hopen others w hroom hclosed
  have hat : FileScan.At file pages (Answers.ofRows (pages.flatMap Page.rows))
      ⟨file, some (ScanProgress.ofPages pages.length)⟩ := ⟨_, rfl, rfl, rfl⟩
  obtain ⟨answer, s₂, w₂, hdrain, hpost, -⟩ :=
    hfile.plays_file.drain FileScan.finite_cursor hat others w₁ hroom hw₁
  rcases hpost with ⟨e, he, -⟩ | rfl
  · exact absurd he (hserved e)
  · rw [Answers.drain_ofRows] at hdrain
    exact ⟨_, w₁, s₂, w₂, hstart, hdrain⟩

end Stores

end Service

/-! ## Tables -/

/-- What is left of the rows in a state of the scan of a table. -/
def TableScan.At (file : HeapFile) (pages : List Page) (answers : List Answer)
    (s : Option FileScan) : Prop :=
  ∃ scan, s = some scan ∧ FileScan.At file pages answers scan

namespace Service

variable {α : Type} {file : HeapFile} {pages : List Page}

/-- A call on an open scan of a table is one on the scan of its file. -/
lemma Runs.forward {call : Call W FileScan α} {scan : FileScan}
    {post : Except Failure α → FileScan → Prop} (h : v.Runs .file call scan post) (name : String) :
    v.Runs .table (TableScan.forward name call) (some scan) fun answer s' =>
      ∃ scan', s' = some scan' ∧ post answer scan' := by
  intro R w hR hw
  obtain ⟨answer, scan', w', heq, hpost, hw'⟩ := h R w hR hw
  refine ⟨answer, some scan', w', ?_, ⟨scan', rfl, hpost⟩, hw'⟩
  simp only [TableScan.forward, heq]

lemma Stores.plays_table (hfile : v.Stores file pages) (t : TableScan) :
    v.Plays .table t.cursor (Answers.ofRows (pages.flatMap Page.rows))
      (TableScan.At file pages) where
  hasNext {answers s} hs := by
    obtain ⟨scan, rfl, hs⟩ := hs
    refine ((hfile.plays_file.hasNext hs).forward hasNextText).mono ?_
    rintro answer s' ⟨scan', rfl, ⟨hrefused, hs'⟩ | ⟨hanswer, hs', hready⟩⟩
    · exact .inl ⟨hrefused, scan', rfl, hs'⟩
    · refine .inr ⟨hanswer, ⟨scan', rfl, hs'⟩, fun row rest hrest w => ?_⟩
      obtain ⟨scan'', hnext, hheld, hs''⟩ := hready row rest hrest w
      have hnext' : FileScan.next scan' w = (.ok row, scan'', w) := hnext
      refine ⟨some scan'', ?_, hheld, scan'', rfl, hs''⟩
      simp only [TableScan.cursor, TableScan.forward, hnext']
  next {answers s} hs := by
    obtain ⟨scan, rfl, hs⟩ := hs
    refine ((hfile.plays_file.next hs).forward nextText).mono ?_
    rintro answer s' ⟨scan', rfl, ⟨hrefused, hs'⟩ | ⟨hanswer, hs'⟩⟩
    · exact .inl ⟨hrefused, scan', rfl, hs'⟩
    · exact .inr ⟨hanswer, scan', rfl, hs'⟩
  rewind {answers s} hs := by
    obtain ⟨scan, rfl, hs⟩ := hs
    refine ((hfile.plays_file.rewind hs).forward rewindText).mono ?_
    rintro answer s' ⟨scan', rfl, hanswer, hs'⟩
    exact ⟨hanswer, scan', rfl, hs'⟩

lemma tidies_table (t : TableScan) : v.Tidies .table t.cursor.close := by
  rintro (_ | scan) R w hw
  · exact ⟨none, w, rfl, hw⟩
  · exact ⟨none, scan.letGo w, rfl, (Multiset.zero_add R).symm ▸ letGo_scan hw⟩

lemma Stores.kin {v' : Service W} (hfile : v.Stores file pages) (h : v.Kin v') :
    v'.Stores file pages where
  registered := h.1 ▸ hfile.registered
  pageCount := h.2 ▸ hfile.pageCount
  readPage := h.2 ▸ hfile.readPage

/-- A table that is registered with a file of its shape opens as the rows of the file. -/
lemma Stores.opensAlike_table (hfile : v.Stores file pages) {t : TableScan}
    (htable : v.catalog.heapFile t.table = .ok file)
    (hshape : file.schema.shape = t.schema.shape) :
    v.OpensAlike .table t.cursor (· = .ok (Answers.ofRows (pages.flatMap Page.rows))) := by
  intro s R w hR hw
  have hlookup := (v.heapFile_eq hw t.table).trans htable
  have hcount := (v.pageCount_eq hw file hfile.registered).trans hfile.pageCount
  have hclosed : FileScan.start (FileScan.closed file) w =
      (.ok (), ⟨file, some (ScanProgress.ofPages pages.length)⟩, w) := by
    simp only [FileScan.start, FileScan.closed, hcount, FileScan.letGo]
  have hat : TableScan.At file pages (Answers.ofRows (pages.flatMap Page.rows))
      (some ⟨file, some (ScanProgress.ofPages pages.length)⟩) := ⟨_, rfl, _, rfl, rfl, rfl⟩
  have hend : v.Concludes (· = .ok (Answers.ofRows (pages.flatMap Page.rows)))
      (fun answers => ∃ At, (∀ v', v.Kin v' → v'.Plays .table t.cursor answers At) ∧
        At answers (some ⟨file, some (ScanProgress.ofPages pages.length)⟩)) (.ok ()) :=
    .opened rfl ⟨_, fun _ hv => (hfile.kin hv).plays_table t, hat⟩
  have hnothing : Footprint.table.held (some ⟨file, some (ScanProgress.ofPages pages.length)⟩) =
      0 := rfl
  rcases s with _ | ⟨file', progress⟩
  · refine ⟨.ok (), _, w, ?_, hend, hnothing ▸ hw⟩
    simp only [TableScan.cursor, TableScan.start, hlookup, hshape, hclosed, if_true]
  · refine ⟨.ok (), _, FileScan.letGo ⟨file', progress⟩ w, ?_, hend, ?_⟩
    · simp only [TableScan.cursor, TableScan.start, hlookup, hshape, hclosed, if_true]
    · rw [hnothing, Multiset.zero_add]
      exact letGo_scan hw

end Service

end RowStore
