import Mathlib.Order.Interval.Finset.Nat
import RowStore.Proofs.Page.AnyBytes

/-!
# Pages tile their file

The pages of a file lie one behind the other, and the last of them may be cut short.  Three
divisions say where everything is: the bits of a page are rounded up to whole words, its payload is
rounded down to whole rows, and a file is rounded up to whole pages.  So the bitmap has a bit for
every slot and not a word too many, the slots lie apart within the page
(`PageLayout.Divided`), and a file ends within its last page (`PageLayout.Spans`).

As long as page numbers reach all pages and a page can be held, exactly these can be read, each as
the bytes at its place followed by zeros (`PageLayout.pageImage`), and every byte of the file is in
one of them and in no other (`HeapFile.Tiled`).  A page that cannot be held is asked for in vain,
even if there is no such page in the file.
-/

namespace RowStore

/-! ## Places -/

namespace PageLayout

variable {l : PageLayout} {length count n i : ℕ}

/-- The bytes of a slot, counted from the beginning of the page. -/
def slotBytes (l : PageLayout) (slot : ℕ) : Finset ℕ :=
  Finset.Ico (l.slotOffset slot) (l.slotOffset slot + l.rowSize)

/-- The bytes of a page, counted from the beginning of the file. -/
def pageBytes (l : PageLayout) (number : ℕ) : Finset ℕ :=
  Finset.Ico (l.pageOffset number) (l.pageOffset number + l.stride)

/-- The image of a page: the bytes of the file at its place, and zeros where the file has ended. -/
def pageImage (l : PageLayout) (bs : Bytes) (number : ℕ) : Bytes :=
  (List.range l.stride).map fun i => bs.getD (l.pageOffset number + i) 0

/-- How a page is divided into a bitmap and slots. -/
structure Divided (l : PageLayout) : Prop where
  headerBytes_eq : l.headerBytes = 4 * l.headerWords
  slots_le : l.slots ≤ 32 * l.headerWords
  least : ∀ words, l.slots ≤ 32 * words → l.headerWords ≤ words
  behind : ∀ slot < l.slots, ∀ i ∈ l.slotBytes slot, l.headerBytes ≤ i
  within : ∀ slot < l.slots, ∀ i ∈ l.slotBytes slot, i < l.stride
  disjoint : ∀ slot < l.slots, ∀ other < l.slots, slot ≠ other →
    Disjoint (l.slotBytes slot) (l.slotBytes other)

/-- How many pages a file takes up: none if it is empty, and otherwise so many that it ends within
the last of them. -/
def Spans (l : PageLayout) (length count : ℕ) : Prop :=
  if length = 0 then count = 0
  else (count - 1) * l.stride < length ∧ length ≤ count * l.stride

/-! ### Slots -/

lemma mem_slotBytes {slot : ℕ} :
    i ∈ l.slotBytes slot ↔ l.slotOffset slot ≤ i ∧ i < l.slotOffset slot + l.rowSize :=
  Finset.mem_Ico

lemma slotOffset_add_rowSize_le_of_lt {slot other : ℕ} (h : slot < other) :
    l.slotOffset slot + l.rowSize ≤ l.slotOffset other := by
  have hrows : (slot + 1) * l.rowSize ≤ other * l.rowSize := Nat.mul_le_mul_right _ h
  rw [Nat.succ_mul] at hrows
  rw [slotOffset, slotOffset]
  omega

lemma disjoint_slotBytes {slot other : ℕ} (h : slot ≠ other) :
    Disjoint (l.slotBytes slot) (l.slotBytes other) := by
  rw [Finset.disjoint_left]
  intro i hi hother
  rw [mem_slotBytes] at hi hother
  rcases Nat.lt_or_gt_of_ne h with hlt | hgt
  · have hle := slotOffset_add_rowSize_le_of_lt (l := l) hlt
    omega
  · have hle := slotOffset_add_rowSize_le_of_lt (l := l) hgt
    omega

lemma divided (l : PageLayout) : l.Divided where
  headerBytes_eq := Nat.mul_comm _ _
  slots_le := by
    rw [headerWords, wordBits]
    omega
  least words h := by
    rw [headerWords, wordBits]
    omega
  behind slot hslot i hi := by
    obtain ⟨-, hbehind, -⟩ := Page.slot_within hslot
    exact Nat.le_trans hbehind (mem_slotBytes.1 hi).1
  within slot hslot i hi := by
    obtain ⟨-, -, hwithin⟩ := Page.slot_within hslot
    exact Nat.lt_of_lt_of_le (mem_slotBytes.1 hi).2 hwithin
  disjoint slot _ other _ h := disjoint_slotBytes h

/-! ### Pages -/

lemma mem_pageBytes (hpos : 0 < l.stride) : i ∈ l.pageBytes n ↔ i / l.stride = n := by
  rw [pageBytes, pageOffset, Finset.mem_Ico, Nat.div_eq_iff hpos, Nat.le_sub_one_iff_lt]
  omega

/-- The number of pages is the length divided by their size, rounded up. -/
lemma spans_div (hpos : 0 < l.stride) (length : ℕ) :
    l.Spans length ((length + (l.stride - 1)) / l.stride) := by
  rw [Spans]
  split
  · next hzero =>
    rw [hzero, Nat.zero_add]
    exact Nat.div_eq_of_lt (by omega)
  · next hne =>
    -- Rounding up counts the page of the last byte and those in front of it.
    have hround : (length + (l.stride - 1)) / l.stride = (length - 1) / l.stride + 1 := by
      rw [← Nat.add_div_right _ hpos]
      congr 1
      omega
    have hbelow : (length - 1) / l.stride * l.stride ≤ length - 1 := Nat.div_mul_le_self _ _
    have habove : length - 1 < (length - 1) / l.stride * l.stride + l.stride :=
      Nat.lt_div_mul_add hpos
    rw [hround, Nat.add_sub_cancel, Nat.succ_mul]
    exact ⟨by omega, by omega⟩

/-- Either all pages have numbers, and then they can be counted, or it is told how many there
are. -/
lemma exists_spans (hpos : 0 < l.stride) (length : ℕ) : ∃ count, l.Spans length count ∧
    l.pageCount length = if count ≤ maxPages then .ok count
      else .error (.invalidParameter "file_len"
        (toString length ++ " (" ++ toString count ++ " pages exceed the page number range)")) :=
  ⟨_, spans_div hpos length, rfl⟩

/-- The page of a byte of the file is one of its pages. -/
lemma Spans.div_lt (h : l.Spans length count) (hi : i < length) : i / l.stride < count := by
  rw [Spans, if_neg (by omega)] at h
  exact Nat.div_lt_of_lt_mul (Nat.mul_comm count l.stride ▸ Nat.lt_of_lt_of_le hi h.2)

/-- The image of a page is what is read there, filled up with zeros. -/
lemma pageImage_eq (l : PageLayout) (bs : Bytes) (number : ℕ) :
    l.pageImage bs number = Bytes.fit l.stride (bs.drop (l.pageOffset number)) := by
  refine List.ext_getElem ?_ fun i hi hi' => ?_
  · rw [pageImage, List.length_map, List.length_range, Bytes.length_fit]
  · have hstride : i < l.stride := by rwa [Bytes.length_fit] at hi'
    rw [← Option.some_inj, ← List.getElem?_eq_getElem hi', Bytes.fit_eq]
    simp only [pageImage, List.getElem_map, List.getElem_range, List.getElem?_append,
      List.length_take, List.length_drop, List.getElem?_take, List.getElem?_drop, if_pos hstride,
      List.getElem?_replicate, List.getD_eq_getElem?_getD]
    by_cases hend : l.pageOffset number + i < bs.length
    · have hthere : i < min l.stride (bs.length - l.pageOffset number) := by omega
      rw [if_pos hthere, List.getElem?_eq_getElem hend]
      rfl
    · have hover : ¬ i < min l.stride (bs.length - l.pageOffset number) := by omega
      rw [if_neg hover, if_pos (by omega), List.getElem?_eq_none (Nat.not_lt.1 hend)]
      rfl

end PageLayout

/-! ## Reading -/

namespace Page

lemma decodeBitmap_fit (layout : PageLayout) (data : Bytes) :
    decodeBitmap layout (Bytes.fit layout.stride data) = decodeBitmap layout data := by
  refine Array.ext (by rw [size_decodeBitmap, size_decodeBitmap]) fun i hi hi' => ?_
  rw [size_decodeBitmap] at hi
  have hroom : 4 * i + 4 ≤ layout.stride := by
    rw [PageLayout.stride, PageLayout.headerBytes, PageLayout.wordBytes]
    omega
  rw [← Option.some_inj, ← Array.getElem?_eq_getElem, ← Array.getElem?_eq_getElem,
    getElem?_decodeBitmap layout _ hi, getElem?_decodeBitmap layout _ hi, Word.read_drop_fit hroom]

/-- Bytes are read as their image is. -/
lemma decode_fit (id : PageId) (schema : Schema) (layout : PageLayout) (data : Bytes) :
    decode id schema layout (Bytes.fit layout.stride data) = decode id schema layout data := by
  have hfit : Bytes.fit layout.stride (Bytes.fit layout.stride data) =
      Bytes.fit layout.stride data := by
    rw [Bytes.fit_of_le (Nat.le_of_eq (Bytes.length_fit _ _).symm),
      List.take_of_length_le (Nat.le_of_eq (Bytes.length_fit _ _))]
  rw [decode_eq, decode_eq, decodeBitmap_fit, hfit]

end Page

namespace HeapFile

variable {f : HeapFile} {d : Disk} {content : SparseBytes} {count : ℕ} {page : PageId}

/-- The pages of a file can be read one by one, and its bytes are in them. -/
structure Tiled (f : HeapFile) (d : Disk) (bytes : Bytes) (count : ℕ) : Prop where
  readable_iff : ∀ number : UInt32,
    (∃ p, f.readPageBounded d ⟨f.id, number⟩ = .ok p) ↔ number.toNat < count
  missing : ∀ number : UInt32, count ≤ number.toNat → f.readPageBounded d ⟨f.id, number⟩ =
    .error (.error (.pageNotFound ⟨f.id, number⟩))
  read : ∀ number : UInt32, number.toNat < count → f.readPageBounded d ⟨f.id, number⟩ =
    Page.decodeBounded ⟨f.id, number⟩ f.schema f.layout (f.layout.pageImage bytes number.toNat)
  covered : ∀ i < bytes.length, ∃! number : UInt32,
    (∃ p, f.readPageBounded d ⟨f.id, number⟩ = .ok p) ∧ i ∈ f.layout.pageBytes number.toNat

lemma readPage_of_le (htable : page.table = f.id) (hcount : f.pageCount d = .ok count)
    (hle : count ≤ page.number.toNat) : f.readPage d page = .error (.pageNotFound page) := by
  simp only [readPage, htable, hcount, bind, Except.bind, ne_eq, not_true_eq_false, if_false,
    if_pos hle]
  rfl

lemma readPage_eq_decode_pageImage (hcontent : d.content f.path = .ok content)
    (htable : page.table = f.id) (hcount : f.pageCount d = .ok count)
    (hlt : page.number.toNat < count) : f.readPage d page =
      Page.decode page f.schema f.layout
        (f.layout.pageImage content.toList page.number.toNat) := by
  rw [readPage_of_lt htable hcount hlt, Disk.read, hcontent, PageLayout.pageImage_eq,
    Page.decode_fit]
  show Page.decode page f.schema f.layout (content.slice _ _) = _
  rw [SparseBytes.slice_eq, ← Page.decode_fit, Bytes.fit_take (Nat.le_refl _), Page.decode_fit]

lemma pageCount_of_content (hcontent : d.content f.path = .ok content) :
    f.pageCount d = f.layout.pageCount content.length := by
  rw [pageCount, Disk.lengthOf_of_content hcontent]
  rfl

lemma spans_of_pageCount (hcontent : d.content f.path = .ok content)
    (hcount : f.pageCount d = .ok count) :
    f.layout.Spans content.length count ∧ count ≤ PageLayout.maxPages := by
  obtain ⟨pages, hspans, hpages⟩ :=
    PageLayout.exists_spans (PageLayout.stride_pos f.valid) content.length
  rw [pageCount_of_content hcontent, hpages] at hcount
  split at hcount <;> cases hcount
  exact ⟨hspans, ‹_›⟩

/-- A file whose pages can be held and counted is tiled by them. -/
lemma tiled (hcontent : d.content f.path = .ok content) (hcount : f.pageCount d = .ok count)
    (hstride : f.layout.stride ≤ Size.bufferLimit) : f.Tiled d content.toList count := by
  have hpos := PageLayout.stride_pos f.valid
  obtain ⟨hspans, hnumbers⟩ := spans_of_pageCount hcontent hcount
  have hmissing : ∀ number : UInt32, count ≤ number.toNat →
      f.readPageBounded d ⟨f.id, number⟩ = .error (.error (.pageNotFound ⟨f.id, number⟩)) := by
    intro number hle
    rw [readPageBounded_of_le hstride, readPage_of_le rfl hcount hle]
    rfl
  have hread : ∀ number : UInt32, number.toNat < count → f.readPageBounded d ⟨f.id, number⟩ =
      liftError (Page.decode ⟨f.id, number⟩ f.schema f.layout
        (f.layout.pageImage content.toList number.toNat)) := by
    intro number hlt
    rw [readPageBounded_of_le hstride, readPage_eq_decode_pageImage hcontent rfl hcount hlt]
  have hreadable : ∀ number : UInt32,
      (∃ p, f.readPageBounded d ⟨f.id, number⟩ = .ok p) ↔ number.toNat < count := by
    intro number
    constructor
    · rintro ⟨p, hp⟩
      by_contra hle
      rw [hmissing number (Nat.not_lt.1 hle)] at hp
      cases hp
    · intro hlt
      obtain ⟨p, hp⟩ := Page.exists_decode_of_size f.rowSize_eq ⟨f.id, number⟩
        (f.layout.pageImage content.toList number.toNat)
      exact ⟨p, by rw [hread number hlt, hp]; rfl⟩
  refine ⟨hreadable, hmissing, fun number hlt => ?_, fun i hi => ?_⟩
  · rw [hread number hlt, Page.decodeBounded_of_stride _ _ f.valid f.rowSize_eq hstride]
  · -- The page of a byte is found by division, and its number is not too large to be one.
    rw [SparseBytes.length_toList] at hi
    have hlt : i / f.layout.stride < count := hspans.div_lt hi
    have hnumber : (UInt32.ofNat (i / f.layout.stride)).toNat = i / f.layout.stride :=
      toNat_ofNat_of_lt hcount hlt
    refine ⟨UInt32.ofNat (i / f.layout.stride), ⟨(hreadable _).2 (by rwa [hnumber]), ?_⟩, ?_⟩
    · rw [hnumber, PageLayout.mem_pageBytes hpos]
    · rintro other ⟨-, hother⟩
      rw [PageLayout.mem_pageBytes hpos] at hother
      rw [← UInt32.toNat_inj, hnumber, hother]

/-- **Pages tile their file.**  With every usable layout, a page is divided into a bitmap and slots,
and a file of any length takes up as many pages as the length rounded up says; they are counted
unless there are more than can be numbered.  If the pages of a file can be counted, and one can be
held, then the file is tiled by them.  A page that cannot be held is not read at all. -/
theorem readPageBounded_tiled {l : PageLayout} (hl : l.validate = .ok l) :
    l.Divided ∧
    (∀ length, ∃ count, l.Spans length count ∧
      l.pageCount length = if count ≤ PageLayout.maxPages then .ok count
        else .error (.invalidParameter "file_len"
          (toString length ++ " (" ++ toString count ++ " pages exceed the page number range)"))) ∧
    ∀ (f : HeapFile) (d : Disk) (content : SparseBytes), f.layout = l →
      d.content f.path = .ok content → f.pageCount d = l.pageCount content.length ∧
        ∀ count, f.pageCount d = .ok count →
          (l.stride ≤ Size.bufferLimit → f.Tiled d content.toList count) ∧
          (Size.bufferLimit < l.stride → ∀ number : UInt32,
            f.readPageBounded d ⟨f.id, number⟩ =
              .error (.violation (.sizeOutOfRange l.stride))) := by
  have hpos := PageLayout.stride_pos ((PageLayout.validate_eq_ok_iff _ _).1 hl).1
  refine ⟨l.divided, PageLayout.exists_spans hpos, ?_⟩
  rintro f d content rfl hcontent
  refine ⟨pageCount_of_content hcontent, fun count hcount => ⟨tiled hcontent hcount, ?_⟩⟩
  exact fun hvast => readPageBounded_of_vast hvast d

/-- A table of notes. -/
def noteFile : HeapFile := ⟨⟨0⟩, "/notes", Page.notes, Page.noteLayout, rfl, by decide⟩

/-- A file that ends with the first byte of its second page. -/
def noteDisk : Disk := (Disk.ofHome []).put "/notes" ⟨[.zeros 37]⟩

/-- Two pages can be read, and the last byte is in the second of them. -/
theorem readPageBounded_tiled_notes :
    Page.noteLayout.validate = .ok Page.noteLayout ∧ noteFile.pageCount noteDisk = .ok 2 ∧
      (∃ p, noteFile.readPageBounded noteDisk ⟨noteFile.id, 1⟩ = .ok p) ∧
      noteFile.readPageBounded noteDisk ⟨noteFile.id, 2⟩ =
        .error (.error (.pageNotFound ⟨noteFile.id, 2⟩)) ∧
      36 ∈ noteFile.layout.pageBytes 1 := by
  have hvalid : Page.noteLayout.validate = .ok Page.noteLayout :=
    (PageLayout.validate_eq_ok_iff _ _).2 ⟨by decide, rfl⟩
  have hcontent : noteDisk.content noteFile.path = .ok ⟨[.zeros 37]⟩ := Disk.content_put _ _ _
  obtain ⟨-, -, hread⟩ := readPageBounded_tiled hvalid
  obtain ⟨hpages, htiled⟩ := hread noteFile noteDisk _ rfl hcontent
  have hcount : noteFile.pageCount noteDisk = .ok 2 := hpages.trans rfl
  have hnotes : noteFile.Tiled noteDisk _ 2 := (htiled 2 hcount).1 (by decide)
  exact ⟨hvalid, hcount, (hnotes.readable_iff 1).2 (by decide), hnotes.missing 2 (by decide),
    by decide⟩

/-- A table of texts that take up half of what a buffer cannot hold. -/
def vastFile : HeapFile where
  id := ⟨0⟩
  path := "/t"
  schema := Page.tomes
  layout := Page.vastLayout
  rowSize_eq := by decide
  valid := by decide

/-- A file with one byte has one page, which cannot be read although its size can be counted, and
asking for a page that is not there does not end well either. -/
theorem readPageBounded_vastFile :
    Page.vastLayout.validate = .ok Page.vastLayout ∧ Page.vastLayout.stride ≤ Size.limit ∧
      vastFile.layout = Page.vastLayout ∧ ∃ d : Disk, d.content vastFile.path = .ok (.ofList [0]) ∧
        vastFile.pageCount d = .ok 1 ∧ ∀ number : UInt32,
          vastFile.readPageBounded d ⟨vastFile.id, number⟩ =
            .error (.violation (.sizeOutOfRange 9223372036854775812)) := by
  have hvalid : Page.vastLayout.validate = .ok Page.vastLayout :=
    (PageLayout.validate_eq_ok_iff _ _).2 ⟨by decide, rfl⟩
  have hcontent : ((Disk.ofHome []).put "/t" (.ofList [0])).content vastFile.path =
      .ok (.ofList [0]) := Disk.content_put _ _ _
  have hlarge : Size.bufferLimit < vastFile.layout.stride := by decide
  refine ⟨hvalid, by decide, rfl, _, hcontent, ?_, fun number => ?_⟩
  · rw [pageCount_of_content hcontent]
    rfl
  · exact readPageBounded_of_vast hlarge _ number

end HeapFile

end RowStore
