import Mathlib
import RowStore.Proofs.Database.Serving
import RowStore.Proofs.HeapFile.Usage
import RowStore.Proofs.Page.StoredForm
import RowStore.Proofs.Query.Scanning

/-!
# What was written is what is scanned

A file that was filled by any calls of a writer has the rows that could be stored, in the order in
which they came, whether it is read at once or scanned through a world that serves its pages
(`Writer.scan_written`).  It may be opened with any schema of the shape with which it was written.
Only pages that can be held and numbered are written out at all.

The pages of the file are those that the writer finished.  They lie one behind the other and are
all of one size, so the bytes at the place of a page are the stored form of that page
(`HeapFile.slice_flatten`), and reading them gives what its columns keep of it.
-/

namespace RowStore

/-! ## Reading pages -/

namespace HeapFile

lemma exists_openNamed {d : Disk} {name path : String} {schema : Schema} {pageSize : ℕ}
    (hpath : d.resolve name = .ok path)
    (hvalid : (PageLayout.mk pageSize schema.byteSize schema.byteSize_pos).Valid) :
    ∃ f, openNamed d name schema pageSize = .ok f ∧ f.id = TableId.ofPath path ∧ f.path = path ∧
      f.schema = schema ∧ f.layout = ⟨pageSize, schema.byteSize, schema.byteSize_pos⟩ := by
  have hlayout := (layoutFor_eq_ok_iff schema pageSize ⟨_, rfl, hvalid⟩).2 rfl
  refine ⟨⟨TableId.ofPath path, path, schema, _, rfl, hvalid⟩, ?_, rfl, rfl, rfl, rfl⟩
  simp only [openNamed, hpath, hlayout, bind, Except.bind]
  rfl

/-- If the pages can be counted, so can the rows, and the file is opened within bounds. -/
lemma exists_openBounded {d : Disk} {name path : String} {schema : Schema} {pageSize : ℕ}
    (hpath : d.resolve name = .ok path)
    (hvalid : (PageLayout.mk pageSize schema.byteSize schema.byteSize_pos).Valid)
    (hstride : (PageLayout.mk pageSize schema.byteSize schema.byteSize_pos).stride ≤ Size.limit) :
    ∃ f, openBounded d name schema pageSize = .ok f ∧ f.id = TableId.ofPath path ∧ f.path = path ∧
      f.schema = schema ∧ f.layout = ⟨pageSize, schema.byteSize, schema.byteSize_pos⟩ := by
  obtain ⟨f, hopen, hid, hfile, hschema, hlayout⟩ := exists_openNamed hpath hvalid
  have hsize := Nat.le_trans (PageLayout.rowSize_le_stride hvalid.1) hstride
  rw [← hlayout] at hstride
  refine ⟨f, ?_, hid, hfile, hschema, hlayout⟩
  rw [openBounded, hpath, hopen, Size.check, Size.within_of_le hsize]
  show (do let _ ← Size.check f.layout.stride; return f) = .ok f
  rw [Size.check, Size.within_of_le hstride]
  rfl

/-- Every scan of a file gives these rows, whatever the world in which it runs, as long as the world
serves the pages of the file. -/
def Scans (f : HeapFile) (d : Disk) (rows : List Row) : Prop :=
  ∀ (W : Type) [Storage W] (v : Service W), v.disk = d → v.catalog.heapFile f.id = .ok f →
    (∀ e, ¬ v.Refuses e) → ∀ others : Multiset (Handle Page), 1 + others.card ≤ v.limit →
      ∀ w, v.Good others w → ∃ s₁ w₁ s₂ w₂,
        FileScan.start (FileScan.closed f) w = (.ok (), s₁, w₁) ∧
          FileScan.cursor.drain FileScan.finite_cursor s₁ w₁ = (.ok rows, s₂, w₂)

lemma scans_of_contents {f : HeapFile} {d : Disk} {rows : List Row} (h : f.contents d = .ok rows) :
    f.Scans d rows := by
  intro W _ v hdisk hfile hserved others hroom w hw
  obtain ⟨pages, hcount, hread, rfl⟩ := contents_eq_ok_iff.1 h
  have hstores : v.Stores f pages := ⟨hfile, hdisk ▸ hcount, hdisk ▸ hread⟩
  exact hstores.scan_of_served hserved hroom hw

variable {f : HeapFile} {d : Disk} {images : List Bytes}

lemma pageCount_flatten (hlengths : ∀ image ∈ images, image.length = f.layout.stride)
    (hlength : d.lengthOf f.path = .ok images.flatten.length)
    (hcount : images.length ≤ PageLayout.maxPages) : f.pageCount d = .ok images.length := by
  have hpos := PageLayout.stride_pos f.valid
  have hpages : (images.length * f.layout.stride + (f.layout.stride - 1)) / f.layout.stride =
      images.length := by
    rw [Nat.mul_comm, Nat.mul_add_div hpos, Nat.div_eq_of_lt (Nat.sub_lt hpos Nat.one_pos),
      Nat.add_zero]
  rw [Bytes.length_flatten hlengths] at hlength
  simp only [pageCount, hlength, bind, Except.bind, PageLayout.pageCount, hpages, if_pos hcount]

/-- The bytes at the place of a page are its image. -/
lemma slice_flatten (hlengths : ∀ image ∈ images, image.length = f.layout.stride) {n : ℕ}
    (hn : n < images.length) :
    (images.flatten.drop (f.layout.pageOffset n)).take f.layout.stride = images[n] := by
  have hpieces := Bytes.pieces_flatten hlengths []
  rw [List.append_nil] at hpieces
  have hget := congrArg (·[n]?) hpieces
  rw [Bytes.getElem?_pieces hn, List.getElem?_eq_getElem hn] at hget
  exact Option.some.inj hget

lemma readPage_flatten (hlengths : ∀ image ∈ images, image.length = f.layout.stride)
    (hcontent : d.content f.path = .ok (.ofList images.flatten))
    (hlength : d.lengthOf f.path = .ok images.flatten.length)
    (hcount : images.length ≤ PageLayout.maxPages) {n : ℕ} (hn : n < images.length) :
    f.readPage d ⟨f.id, UInt32.ofNat n⟩ =
      Page.decode ⟨f.id, UInt32.ofNat n⟩ f.schema f.layout images[n] := by
  have hnumber : (UInt32.ofNat n).toNat = n :=
    UInt32.toNat_ofNat_of_lt' (Nat.lt_of_lt_of_le hn (Nat.le_succ_of_le hcount))
  have hpages := pageCount_flatten hlengths hlength hcount
  rw [readPage_of_lt rfl hpages (hnumber.symm ▸ hn), hnumber]
  simp only [Disk.read, hcontent, bind, Except.bind, pure, Except.pure, SparseBytes.slice_eq,
    SparseBytes.toList_ofList, slice_flatten hlengths hn]

end HeapFile

/-! ## Reading what was written -/

namespace Writer

namespace Filled

variable {w₀ w : Writer} {pages : List Page}

/-- The bytes that were written out are the images of the pages, all of one size. -/
lemma exists_images (h : Filled w₀ w pages) : ∃ images, pages.mapM Page.encode = .ok images ∧
    w.output = images.flatten ∧ ∀ image ∈ images, image.length = w₀.layout.stride := by
  obtain ⟨images, himages, houtput⟩ := h.output
  refine ⟨images, himages, houtput, fun image himage => ?_⟩
  obtain ⟨p, hp, hencode⟩ := mem_of_mapM_eq_ok himages himage
  obtain ⟨n, hn, rfl⟩ := List.getElem_of_mem hp
  have hmade := h.finished n hn
  obtain ⟨image', hencode', hlength⟩ :=
    hmade.packed.toSound.exists_encode (hmade.rowSize_eq h.rowSize_eq)
  rw [hencode] at hencode'
  cases hencode'
  rw [hlength, hmade.layout_eq]

lemma length_output (h : Filled w₀ w pages) :
    w.output.length = pages.length * w₀.layout.stride := by
  obtain ⟨images, himages, houtput, hlengths⟩ := h.exists_images
  rw [houtput, Bytes.length_flatten hlengths, length_of_mapM_eq_ok himages]

/-- The pages of a file with the bytes that were written out are read one by one as what is kept of
the pages that were finished. -/
lemma readPage_eq (h : Filled w₀ w pages) {f : HeapFile} {d : Disk} (hid : f.id = w₀.table)
    (hlayout : f.layout = w₀.layout) (hshape : f.schema.shape = w₀.schema.shape)
    (hcontent : d.content f.path = .ok (.ofList w.output))
    (hlength : d.lengthOf f.path = .ok w.output.length)
    (hcount : pages.length ≤ PageLayout.maxPages) (hbounded : ∀ ty ∈ w₀.schema.shape, ty.Bounded) :
    f.pageCount d = .ok pages.length ∧ ∀ n (hn : n < pages.length),
      f.readPage d ⟨f.id, UInt32.ofNat n⟩ = .ok (pages[n].keep f.schema) := by
  obtain ⟨images, himages, houtput, hlengths⟩ := h.exists_images
  have hsame : images.length = pages.length := length_of_mapM_eq_ok himages
  rw [houtput] at hcontent hlength
  rw [← hlayout] at hlengths
  refine ⟨?_, fun n hn => ?_⟩
  · rw [← hsame]
    exact HeapFile.pageCount_flatten hlengths hlength (hsame ▸ hcount)
  · have hmade := h.finished n hn
    have hencode := getElem_of_mapM_eq_ok himages n hn (hsame ▸ hn)
    have hlegible := hmade.packed.toSound.legible (hmade.schema_eq ▸ hbounded)
    have hdecode := hmade.packed.toSound.decode_encode (hmade.rowSize_eq h.rowSize_eq) hlegible
      hencode (hmade.schema_eq ▸ hshape)
    rw [hmade.id_eq, hmade.layout_eq, ← hid, ← hlayout] at hdecode
    rw [HeapFile.readPage_flatten hlengths hcontent hlength (hsame ▸ hcount) (hsame ▸ hn), hdecode]

/-- What a file with the bytes that were written out contains. -/
lemma contents_eq (h : Filled w₀ w pages) {f : HeapFile} {d : Disk} (hid : f.id = w₀.table)
    (hlayout : f.layout = w₀.layout) (hshape : f.schema.shape = w₀.schema.shape)
    (hcontent : d.content f.path = .ok (.ofList w.output))
    (hlength : d.lengthOf f.path = .ok w.output.length)
    (hcount : pages.length ≤ PageLayout.maxPages) (hbounded : ∀ ty ∈ w₀.schema.shape, ty.Bounded) :
    f.pageCount d = .ok pages.length ∧
      f.contents d = .ok ((pages.flatMap Page.rows).map (Row.keep f.schema)) := by
  obtain ⟨hpages, hread⟩ := h.readPage_eq hid hlayout hshape hcontent hlength hcount hbounded
  refine ⟨hpages, HeapFile.contents_eq_ok_iff.2 ⟨pages.map (Page.keep f.schema), ?_, ?_, ?_⟩⟩
  · rw [List.length_map, hpages]
  · intro n hn
    rw [List.length_map] at hn
    rw [hread n hn, List.getElem_map]
  · rw [List.map_flatMap, List.flatMap_map]
    exact List.flatMap_congr fun p _ => (Page.rows_keep f.schema p).symm

lemma table_eq_of_mem (h : Filled w₀ w pages) {row : Row} (hrow : row ∈ pages.flatMap Page.rows) :
    ∃ id, row.recordId = some id ∧ id.page.table = w₀.table := by
  obtain ⟨p, hp, hrow⟩ := List.mem_flatMap.1 hrow
  obtain ⟨n, hn, rfl⟩ := List.getElem_of_mem hp
  obtain ⟨slot, hslot⟩ := Page.exists_row?_of_mem hrow
  have hmade := h.finished n hn
  refine ⟨_, (hmade.packed.stored slot row hslot).2, ?_⟩
  rw [Page.recordIdOf, hmade.id_eq]

/-- Record ids come in the order of pages and slots. -/
lemma pairwise_rows (h : Filled w₀ w pages) (hcount : pages.length ≤ PageLayout.maxPages) :
    (pages.flatMap Page.rows).Pairwise Row.Before := by
  rw [List.pairwise_flatMap]
  refine ⟨fun p hp => ?_, List.pairwise_iff_getElem.2 fun i j hi hj hlt r hr s hs => ?_⟩
  · obtain ⟨n, hn, rfl⟩ := List.getElem_of_mem hp
    have hmade := h.finished n hn
    exact hmade.packed.toSound.pairwise_rows (hmade.layout_eq.symm ▸ h.valid)
  · obtain ⟨slot, hslot⟩ := Page.exists_row?_of_mem hr
    obtain ⟨slot', hslot'⟩ := Page.exists_row?_of_mem hs
    have hmade := h.finished i hi
    have hmade' := h.finished j hj
    refine ⟨_, _, (hmade.packed.stored slot r hslot).2, (hmade'.packed.stored slot' s hslot').2,
      .inl ?_⟩
    have hsize : pages.length < UInt32.size := Nat.lt_succ_of_le hcount
    rw [Page.recordIdOf, Page.recordIdOf, hmade.id_eq, hmade'.id_eq, UInt32.lt_iff_toNat_lt,
      UInt32.toNat_ofNat_of_lt' (Nat.lt_trans hi hsize),
      UInt32.toNat_ofNat_of_lt' (Nat.lt_trans hj hsize)]
    exact hlt

end Filled

lemma storable_of_mem_accepted {schema : Schema} {calls : List Call} {r : Row}
    (h : r ∈ accepted schema calls) : r.Storable schema := by
  obtain ⟨call, -, hcall⟩ := List.mem_filterMap.1 h
  rcases call with r' | _
  · rw [Call.row?] at hcall
    split at hcall
    · next hr =>
      cases hcall
      exact hr
    · cases hcall
  · cases hcall

/-- Rows that can be stored are handed out one by one, if their fields were stored. -/
lemma forall₂_keeps_of_storable {schema other : Schema} (hshape : other.shape = schema.shape)
    {given rows : List Row} (hstorable : ∀ r ∈ given, r.Storable schema)
    (h : rows.map Row.fields = given.map Row.fields) :
    List.Forall₂ (Row.Keeps other) given (rows.map (Row.keep other)) := by
  have hfields : List.Forall₂ (fun r row => r.fields = row.fields) given rows := by
    have heq : List.Forall₂ (· = ·) (given.map Row.fields) (rows.map Row.fields) := by
      rw [List.forall₂_eq_eq_eq, h]
    exact List.forall₂_map_left_iff.1 (List.forall₂_map_right_iff.1 heq)
  have hother : ∀ r ∈ given, r.Storable other := fun r hr => by
    have hr := hstorable r hr
    rwa [Row.Storable, ← hshape] at hr
  rw [List.forall₂_map_right_iff]
  refine ((List.forall₂_and_left _ _).2 ⟨hother, hfields⟩).imp fun r row h => ?_
  exact h.1.keeps h.2

/-- The rows that calls add are handed out, one by one. -/
lemma forall₂_keeps {schema other : Schema} (hshape : other.shape = schema.shape)
    {calls : List Call} {rows : List Row}
    (h : rows.map Row.fields = (accepted schema calls).map Row.fields) :
    List.Forall₂ (Row.Keeps other) (accepted schema calls) (rows.map (Row.keep other)) :=
  forall₂_keeps_of_storable hshape (fun _ => storable_of_mem_accepted) h

/-- A file is created within bounds if its pages can be counted. -/
lemma createBounded_eq_ok {d d₀ : Disk} {name : String} {schema : Schema} {pageSize : ℕ}
    {w₀ : Writer} (hcreate : create d name schema pageSize = .ok (w₀, d₀))
    (hstride : w₀.layout.stride ≤ Size.limit) :
    createBounded d name schema pageSize = .ok (w₀, d₀) := by
  obtain ⟨hfilled, -, -, rfl, -⟩ := create_eq_ok hcreate
  have hsize : w₀.schema.byteSize ≤ Size.limit := by
    rw [← hfilled.rowSize_eq]
    exact Nat.le_trans (PageLayout.rowSize_le_stride hfilled.valid.1) hstride
  simp only [createBounded, Size.check, Size.within_of_le hsize, hcreate, bind, Except.bind]
  rfl

/-- A file that a writer has written can be opened by its name with a schema of its shape. -/
lemma Filled.exists_openBounded {d d₀ : Disk} {name : String} {schema : Schema} {pageSize : ℕ}
    {w₀ w : Writer} {pages : List Page} (h : Filled w₀ w pages)
    (hcreate : create d name schema pageSize = .ok (w₀, d₀))
    (hstride : w₀.layout.stride ≤ Size.limit) {other : Schema}
    (hshape : other.shape = schema.shape) :
    ∃ f, HeapFile.openBounded (w.flush d₀) name other pageSize = .ok f ∧ f.id = w₀.table ∧
      f.path = w₀.path ∧ f.schema = other ∧ f.layout = w₀.layout := by
  obtain ⟨-, -, htable, -, hlayout, hlocate, rfl⟩ := create_eq_ok hcreate
  obtain ⟨place, hname, hplace, hpath⟩ := Disk.exists_place_of_locate hlocate
  -- The file takes the place of no directory, so its name still leads to it.
  have hresolve : (w.flush (d.put w₀.path ∅)).resolve name = .ok w₀.path := by
    rw [flush, h.path_eq, hpath]
    refine Disk.resolve_put ?_ ?_ _
    · rw [Disk.placeOf_put hplace, hname]
    · rw [Disk.isDirectory_put hplace, hplace]
  have hsame : (⟨pageSize, other.byteSize, other.byteSize_pos⟩ : PageLayout) = w₀.layout := by
    have hsize : other.byteSize = schema.byteSize := by
      rw [Schema.byteSize, Schema.byteSize, hshape]
    rw [hlayout]
    simp only [hsize]
  obtain ⟨f, hopen, hid, hfile, hschema, hfileLayout⟩ :=
    HeapFile.exists_openBounded hresolve (hsame ▸ h.valid) (hsame ▸ hstride)
  exact ⟨f, hopen, hid.trans htable.symm, hfile, hschema, hfileLayout.trans hsame⟩

/-- **A file that was written is scanned as the rows that were stored.**  Wherever a file can be
created, and with every layout that is usable, a writer can be driven by any calls, with rows of one
field per column, as long as the layout admits the pages that they write out.  Each call is answered
as it deserves, and there are as many bytes as the pages need.  The file can be opened with any
schema of the shape.  Its rows are those that could be stored, in order, with what their columns
keep of them, and their record ids name the table and go up.  A page that the layout does not admit
is not written out, by the calls or at the end. -/
theorem scan_written {d : Disk} {name path : String} {schema : Schema} {pageSize : ℕ}
    {layout : PageLayout} (hpath : d.locate name = .ok path)
    (hlayout : (PageLayout.mk pageSize schema.byteSize schema.byteSize_pos).validate = .ok layout)
    (hstride : layout.stride ≤ Size.limit) (hbounded : ∀ ty ∈ schema.shape, ty.Bounded)
    (calls : List Call) (hwidth : ∀ r, .append r ∈ calls → r.width = r.schema.width) :
    ∃ w₀ d₀, createBounded d name schema pageSize = .ok (w₀, d₀) ∧
      (layout.Admits (Usage.ofCalls schema layout.slots calls).pages →
        ∃ answers w₁, w₀.runBounded calls = .ok (answers, w₁) ∧
          List.Forall₂ (Call.Answered schema) calls answers ∧
          (layout.Admits (Usage.ofCalls schema layout.slots calls).total → ∃ count w,
            count = (Usage.ofCalls schema layout.slots calls).total ∧
            w₁.finishBounded = .ok (.ok count, w) ∧
            (w.flush d₀).lengthOf path = .ok (count * layout.stride) ∧
            ∀ other : Schema, other.shape = schema.shape → ∃ file rows,
              HeapFile.openBounded (w.flush d₀) name other pageSize = .ok file ∧
              file.path = path ∧ file.layout = layout ∧ file.schema = other ∧
              file.pageCount (w.flush d₀) = .ok count ∧
              (∀ n < count, ∃ p,
                file.readPageBounded (w.flush d₀) ⟨file.id, UInt32.ofNat n⟩ = .ok p) ∧
              List.Forall₂ (Row.Keeps other) (accepted schema calls) rows ∧
              (∀ row ∈ rows, ∃ id, row.recordId = some id ∧ id.page.table = file.id) ∧
              rows.Pairwise Row.Before ∧
              file.contents (w.flush d₀) = .ok rows ∧ file.Scans (w.flush d₀) rows) ∧
          (¬ layout.Admits (Usage.ofCalls schema layout.slots calls).total →
            ∃ promise, w₁.finishBounded = .error (.violation promise))) ∧
      (¬ layout.Admits (Usage.ofCalls schema layout.slots calls).pages →
        ∃ promise, w₀.runBounded calls = .error (.violation promise)) := by
  obtain ⟨hvalid, rfl⟩ := (PageLayout.validate_eq_ok_iff _ _).1 hlayout
  obtain ⟨w₀, d₀, hcreate⟩ := exists_create hpath hvalid
  obtain ⟨hfresh, hempty, -, hschema, hsame, hlocate, -⟩ := create_eq_ok hcreate
  obtain rfl := Except.ok.inj (hlocate.symm.trans hpath)
  subst hschema
  rw [← hsame] at hstride ⊢
  obtain ⟨answers, w₁, pages₁, hrun, h₁, hanswers, hrows₁⟩ := hfresh.run hwidth
  -- The calls alone tell how far the writer comes.
  have hnew : w₀.usage = ⟨0, 0⟩ := by
    rw [usage, hfresh.count, Page.rowCount_eq, hempty]
    rfl
  have husage : w₁.usage = Usage.ofCalls w₀.schema w₀.layout.slots calls := by
    have husage := hfresh.usage_run hwidth
    rwa [hrun, hnew] at husage
  have hbegin : w₀.layout.Admits w₀.usage.pages := hnew ▸ w₀.layout.admits_zero
  obtain ⟨hrunOk, hrunNone⟩ := hfresh.runBounded hbegin hwidth
  rw [← hfresh.usage_run hwidth, hrun, husage] at hrunOk hrunNone
  refine ⟨w₀, d₀, createBounded_eq_ok hcreate hstride, fun hadmits => ?_, hrunNone⟩
  obtain ⟨hfinishOk, hfinishNone⟩ := h₁.finishBounded (husage ▸ hadmits)
  rw [husage] at hfinishOk hfinishNone
  refine ⟨answers, w₁, hrunOk hadmits, hanswers, fun htotal => ?_, hfinishNone⟩
  obtain ⟨w, pages, hfinish, h, hrows⟩ := h₁.finish
  have hcount : pages.length = (Usage.ofCalls w₀.schema w₀.layout.slots calls).total := by
    have hcount := h₁.finish_eq_total
    rw [hfinish, husage] at hcount
    exact Except.ok.inj hcount
  have hcontent : (w.flush d₀).content w₀.path = .ok (.ofList w.output) := by
    rw [flush, h.path_eq, Disk.content_put]
  have hlength : (w.flush d₀).lengthOf w₀.path = .ok w.output.length := by
    rw [flush, h.path_eq, Disk.lengthOf_put, ← SparseBytes.length_toList, SparseBytes.toList_ofList]
  refine ⟨pages.length, w, hcount, by rw [hfinishOk htotal, hfinish], ?_, fun other hshape => ?_⟩
  · rw [hlength, h.length_output]
  · rw [← hcount] at htotal
    obtain ⟨file, hopen, hid, hfile, hother, hfileLayout⟩ :=
      h.exists_openBounded hcreate hstride hshape
    rw [← hfile] at hcontent hlength
    obtain ⟨hpages, hread⟩ :=
      h.readPage_eq hid hfileLayout (hother ▸ hshape) hcontent hlength htotal.1 hbounded
    obtain ⟨-, hcontents⟩ :=
      h.contents_eq hid hfileLayout (hother ▸ hshape) hcontent hlength htotal.1 hbounded
    rw [hother] at hcontents
    refine ⟨file, (pages.flatMap Page.rows).map (Row.keep other), hopen, hfile, hfileLayout, hother,
      hpages, fun n hn => ⟨pages[n].keep file.schema, ?_⟩, forall₂_keeps hshape ?_,
      fun row hrow => ?_, ?_, hcontents, HeapFile.scans_of_contents hcontents⟩
    · have hheld : file.layout.stride ≤ Size.bufferLimit :=
        hfileLayout ▸ htotal.2 (Nat.lt_of_le_of_lt (Nat.zero_le n) hn)
      rw [HeapFile.readPageBounded_of_le hheld, hread n hn]
      rfl
    · rw [List.map_flatMap]
      refine hrows.trans (hrows₁.trans ?_)
      rw [fieldsOf_concat, hempty]
      rfl
    · obtain ⟨stored, hstored, rfl⟩ := List.mem_map.1 hrow
      obtain ⟨id, hrecord, htable⟩ := h.table_eq_of_mem hstored
      exact ⟨id, hrecord, htable.trans hid.symm⟩
    · exact List.pairwise_map.2 (h.pairwise_rows htotal.1)

/-- A schema with a column of integers and one of short texts. -/
def labels : Schema := ⟨[⟨.int, none⟩, ⟨.text 2, none⟩], by decide⟩

/-- A row with a label. -/
def label (n : Int32) (s : String) : Row := ⟨labels, [some (.int n), some (.text s)], none⟩

/-- A page that is finished before it is full, and a row that cannot be stored. -/
def labelCalls : List Call :=
  [.append (label 7 "abc"), .finishPage, .append (.unset labels), .append (label 9 "")]

/-- The writer of a file with two rows on a page. -/
def labelWriter : Writer where
  path := "/t"
  table := TableId.ofPath "/t"
  schema := labels
  layout := ⟨20, 10, by decide⟩
  page := freshPage (TableId.ofPath "/t") labels ⟨20, 10, by decide⟩ 0
  pagesWritten := 0
  rowsWritten := 0
  output := []

lemma locate_label : (Disk.ofHome []).locate "t" = .ok "/t" := by cbv

lemma create_labelWriter : create (Disk.ofHome []) "t" labels 20 =
    .ok (labelWriter, (Disk.ofHome []).put "/t" ∅) := by
  have hlayout : HeapFile.layoutFor labels 20 = .ok ⟨⟨20, 10, by decide⟩, rfl, by decide⟩ :=
    (HeapFile.layoutFor_eq_ok_iff _ _ _).2 rfl
  simp only [create, locate_label, hlayout]
  rfl

/-- Of four calls one is refused, and both rows are found by a scan in a database with one frame. -/
theorem scan_written_labels : ∃ answers w₁ w file rows, ∃ db : Database, ∃ s₁ db₁ s₂ db₂,
    labelWriter.runBounded labelCalls = .ok (answers, w₁) ∧ w₁.finishBounded = .ok (.ok 2, w) ∧
      db.disk = w.flush ((Disk.ofHome []).put "/t" ∅) ∧
      HeapFile.openBounded db.disk "t" labels 20 = .ok file ∧
      FileScan.start (FileScan.closed file) db = (.ok (), s₁, db₁) ∧
      FileScan.cursor.drain FileScan.finite_cursor s₁ db₁ = (.ok rows, s₂, db₂) ∧
      List.Forall₂ (Row.Keeps labels) [label 7 "abc", label 9 ""] rows := by
  have hvalid : (⟨20, labels.byteSize, labels.byteSize_pos⟩ : PageLayout).validate =
      .ok ⟨20, labels.byteSize, labels.byteSize_pos⟩ :=
    (PageLayout.validate_eq_ok_iff _ _).2 ⟨by decide, rfl⟩
  have hbounded : ∀ ty ∈ labels.shape, ty.Bounded := by
    rintro ty hty capacity rfl
    obtain rfl : capacity = 2 := by simpa [labels, Schema.shape] using hty
    decide
  have hwidth : ∀ r, .append r ∈ labelCalls → r.width = r.schema.width := by
    intro r hr
    simp only [labelCalls, List.mem_cons, Call.append.injEq, reduceCtorEq, List.not_mem_nil,
      or_false, false_or] at hr
    obtain rfl | rfl | rfl := hr <;> rfl
  obtain ⟨w₀, d₀, hcreate, hcalls, -⟩ :=
    scan_written locate_label hvalid (by decide) hbounded labelCalls hwidth
  rw [createBounded_eq_ok create_labelWriter (by decide)] at hcreate
  cases hcreate
  obtain ⟨answers, w₁, hrun, -, hend, -⟩ := hcalls ⟨by decide, fun _ => by decide⟩
  obtain ⟨count, w, hcount, hfinish, -, hread⟩ := hend ⟨by decide, fun _ => by decide⟩
  obtain rfl : count = 2 := hcount
  obtain ⟨file, rows, hopen, -, -, -, -, -, hrows, -, -, -, hscans⟩ := hread labels rfl
  obtain ⟨s₁, db₁, s₂, db₂, hstart, hdrain⟩ := hscans Database
    (Database.service (Catalog.empty.add file "t") _ 1 0 Catalog.id_of_heapFile_add_empty) rfl
    ((Catalog.heapFile_add _ _ _ _).trans (if_pos rfl)) (fun _ h => h) 0
    (show 1 + (0 : Multiset (Handle Page)).card ≤ 1 by decide) _
    (Database.Serving.of_ofFrames ⟨20, 1⟩)
  exact ⟨answers, w₁, w, file, rows, _, s₁, db₁, s₂, db₂, hrun, hfinish, rfl, hopen, hstart, hdrain,
    hrows⟩

/-- The writer of a file whose pages cannot be held. -/
def volumeWriter : Writer where
  path := "/t"
  table := TableId.ofPath "/t"
  schema := Page.volumes
  layout := Page.shelves
  page := freshPage (TableId.ofPath "/t") Page.volumes Page.shelves 0
  pagesWritten := 0
  rowsWritten := 0
  output := []

/-- A page is not written out if it is larger than a buffer, although the file is created with a
usable layout, the length of every text can be counted, and it is the only page. -/
theorem runBounded_volumes :
    Page.shelves.validate = .ok Page.shelves ∧ (∀ ty ∈ Page.volumes.shape, ty.Bounded) ∧
      createBounded (Disk.ofHome []) "t" Page.volumes Page.shelves.pageSize =
        .ok (volumeWriter, (Disk.ofHome []).put "/t" ∅) ∧
      volumeWriter.runBounded [.finishPage] =
        .error (.violation (.sizeOutOfRange 9223372036854784000)) := by
  have hlayout : HeapFile.layoutFor Page.volumes Page.shelves.pageSize =
      .ok ⟨Page.shelves, rfl, Page.valid_shelves⟩ :=
    (HeapFile.layoutFor_eq_ok_iff _ _ _).2 rfl
  have hcreate : create (Disk.ofHome []) "t" Page.volumes Page.shelves.pageSize =
      .ok (volumeWriter, (Disk.ofHome []).put "/t" ∅) := by
    simp only [create, locate_label, hlayout, bind, Except.bind]
    rfl
  have hcount : Page.shelves.stride ≤ Size.limit := by
    rw [Page.stride_shelves]
    decide
  have hvast : ¬ volumeWriter.layout.stride ≤ Size.bufferLimit := by
    rw [volumeWriter, Page.stride_shelves]
    decide
  have hcheck : volumeWriter.checkPage =
      .error (.violation (.sizeOutOfRange 9223372036854784000)) := by
    rw [checkPage, Size.checkBuffer, Size.within, if_neg hvast, volumeWriter, Page.stride_shelves]
    rfl
  refine ⟨(PageLayout.validate_eq_ok_iff _ _).2 ⟨Page.valid_shelves, rfl⟩, Page.bounded_volumes,
    createBounded_eq_ok hcreate hcount, ?_⟩
  rw [runBounded, actBounded, finishPageBounded_eq, hcheck]
  rfl

end Writer

end RowStore
