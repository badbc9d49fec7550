import Mathlib.Data.List.Induction
import RowStore.Bounded
import RowStore.Proofs.Value.Codec

/-!
# Values one behind the other

Values are read one by one from a run of bytes, each under the type of its column.  What comes of
this is said by a relation that does not mention the reader (`Value.ReadsTo`): a value uses up the
bytes of its column and is what they show (`ColumnType.Shows`), and where there are fewer bytes than
the column needs, the value is missing and the bytes are left to the next.  Likewise values are
written one by one behind a buffer, where one that is not of the kind of its column leaves nothing
behind (`Value.WritesTo`).

Reading and writing are related in this way whatever the types, the bytes and the values are, as
long as widths can be counted and the buffer can hold what is written; else nothing comes of it.  If
the lengths of all texts can be stored, then reading what was written gives what the columns keep of
the values, and stops exactly where the writing did (`Value.readsTo_writesTo`).
-/

namespace RowStore

/-! ## What a column shows -/

/-- The number in the first four bytes: the most significant byte comes first, and from the middle
of the range on numbers are negative. -/
def Bytes.signed (bs : Bytes) : ℤ :=
  let n : ℕ := (bs.take 4).foldl (fun n b => n * 256 + b.toNat) 0
  if n < 2147483648 then n else n - 4294967296

/-- What the bytes of a column show.  Of a text these are as many bytes of the payload as the number
in front of it says, which counts as zero if it is negative, and as the capacity if it is beyond. -/
inductive ColumnType.Shows : ColumnType → Bytes → Value → Prop
  | int {image : Bytes} {n : Int32} (h : n.toInt = image.signed) : Shows int image (.int n)
  | text {capacity : ℕ} {image : Bytes} {length : ℕ}
    (h : (length : ℤ) = min (max image.signed 0) capacity) :
    Shows (text capacity) image (.text (Utf8.decode ((image.drop 4).take length)))

lemma Bytes.foldl_lt (bs : Bytes) :
    bs.foldl (fun n b => n * 256 + b.toNat) 0 < 256 ^ bs.length := by
  induction bs using List.reverseRecOn with
  | nil => exact Nat.one_pos
  | append_singleton bs b ih =>
    have hb := b.toNat_lt
    rw [List.foldl_append, List.length_append, List.length_singleton, Nat.pow_succ]
    simp only [List.foldl_cons, List.foldl_nil]
    omega

/-- A word that is read as a signed number is the number shown. -/
lemma Word.toInt_read {bs : Bytes} (h : 4 ≤ bs.length) :
    (Word.read bs).toInt32.toInt = bs.signed := by
  have hlength : (bs.take 4).length = 4 := List.length_take_of_le h
  have hlt := Bytes.foldl_lt (bs.take 4)
  rw [hlength] at hlt
  rw [Word.read, Bytes.fit_of_le h, Bytes.signed]
  generalize (bs.take 4).foldl (fun n b => n * 256 + b.toNat) 0 = n at hlt
  have hbits : (UInt32.ofNat n).toInt32.toInt = (BitVec.ofNat 32 n).toInt := rfl
  have hnat : (BitVec.ofNat 32 n).toNat = n := by
    rw [BitVec.toNat_ofNat]
    omega
  rw [hbits, BitVec.toInt_eq_toNat_cond, hnat]
  split <;> split <;> omega

namespace Value

/-- What is read from the bytes of a column is what they show, whatever follows them. -/
lemma shows_readField {ty : ColumnType} {image : Bytes} (h : image.length = ty.width)
    (rest : Bytes) : ty.Shows image (readField ty (image ++ rest)) := by
  cases ty with
  | int =>
    have hfour : 4 ≤ image.length := Nat.le_of_eq h.symm
    refine .int ?_
    rw [Word.toInt_read (Nat.le_trans hfour (List.length_append ▸ Nat.le_add_right _ _)),
      Bytes.signed, Bytes.signed, List.take_append_of_le_length hfour]
  | text capacity =>
    have hwidth : image.length = 4 + capacity := h
    have hfour : 4 ≤ image.length := by omega
    have hsigned : (Word.read (image ++ rest)).toInt32.toInt = image.signed := by
      rw [Word.toInt_read (by rw [List.length_append]; omega), Bytes.signed, Bytes.signed,
        List.take_append_of_le_length hfour]
    rw [readField, hsigned]
    generalize hlength : min image.signed.toNat capacity = length
    have hroom : length ≤ (image.drop 4).length := by
      rw [List.length_drop]
      omega
    have hpayload : Bytes.fit length ((image ++ rest).drop ColumnType.lengthWidth) =
        (image.drop 4).take length := by
      rw [ColumnType.lengthWidth, List.drop_append_of_le_length hfour,
        Bytes.fit_of_le (by rw [List.length_append]; omega), List.take_append_of_le_length hroom]
    rw [hpayload]
    exact .text (by omega)

/-! ## Reading -/

/-- What values of the given types are in a run of bytes, and which bytes are left at the end. -/
inductive ReadsTo : List ColumnType → Bytes → List (Except Error Value) → Bytes → Prop
  | nil {bs : Bytes} : ReadsTo [] bs [] bs
  /-- The bytes of the column are used up. -/
  | value {ty : ColumnType} {types : List ColumnType} {image rest left : Bytes} {v : Value}
    {answers : List (Except Error Value)} (hwidth : image.length = ty.width)
    (hv : ty.Shows image v) (hrest : ReadsTo types rest answers left) :
    ReadsTo (ty :: types) (image ++ rest) (.ok v :: answers) left
  /-- There are too few bytes, and they are left to the next column. -/
  | short {ty : ColumnType} {types : List ColumnType} {bs left : Bytes}
    {answers : List (Except Error Value)} (hshort : bs.length < ty.width)
    (hrest : ReadsTo types bs answers left) :
    ReadsTo (ty :: types) bs (.error (.io .endOfFile) :: answers) left

lemma readEach_of_lt {ty : ColumnType} {bs : Bytes} (h : bs.length < ty.width)
    (types : List ColumnType) : readEach (ty :: types) bs =
      (.error (.io .endOfFile) :: (readEach types bs).1, (readEach types bs).2) := by
  simp only [readEach, read, if_pos h]

lemma readEach_append {ty : ColumnType} {image : Bytes} (h : image.length = ty.width)
    (types : List ColumnType) (rest : Bytes) : readEach (ty :: types) (image ++ rest) =
      (.ok (readField ty (image ++ rest)) :: (readEach types rest).1, (readEach types rest).2) := by
  have hroom : ¬ (image ++ rest).length < ty.width := by
    rw [List.length_append]
    omega
  simp only [readEach, read, if_neg hroom, List.drop_left' h]

lemma readsTo_readEach (types : List ColumnType) (bs : Bytes) :
    ReadsTo types bs (readEach types bs).1 (readEach types bs).2 := by
  induction types generalizing bs with
  | nil => exact .nil
  | cons ty types ih =>
    by_cases hshort : bs.length < ty.width
    · rw [readEach_of_lt hshort]
      exact .short hshort (ih bs)
    · have hwidth : (bs.take ty.width).length = ty.width :=
        List.length_take_of_le (Nat.not_lt.1 hshort)
      rw [← List.take_append_drop ty.width bs, readEach_append hwidth]
      exact .value hwidth (shows_readField hwidth _) (ih _)

lemma readEachBounded_of_le {types : List ColumnType} (h : ∀ ty ∈ types, ty.width ≤ Size.limit)
    (bs : Bytes) : readEachBounded types bs = .ok (readEach types bs) := by
  have hchecked : (types.forM fun ty => do let _ ← Size.check ty.width) = .ok () := by
    induction types with
    | nil => rfl
    | cons ty types ih =>
      rw [List.forall_mem_cons] at h
      rw [List.forM, Size.check, Size.within_of_le h.1]
      exact ih h.2
  rw [readEachBounded, hchecked]
  rfl

lemma readEachBounded_of_vast {types : List ColumnType} (h : ∃ ty ∈ types, Size.limit < ty.width)
    (bs : Bytes) :
    ∃ size, readEachBounded types bs = .error (.violation (.sizeOutOfRange size)) := by
  have hchecked : ∃ size, (types.forM fun ty => do let _ ← Size.check ty.width) =
      .error (.violation (.sizeOutOfRange size)) := by
    induction types with
    | nil => exact absurd h (by simp)
    | cons ty types ih =>
      rw [List.forM, Size.check, Size.within]
      split
      · next hle =>
        rw [List.exists_mem_cons_iff] at h
        exact ih (h.resolve_left (Nat.not_lt.2 hle))
      · exact ⟨_, rfl⟩
  obtain ⟨size, hsize⟩ := hchecked
  refine ⟨size, ?_⟩
  rw [readEachBounded, hsize]
  rfl

/-! ## Writing -/

/-- What becomes of a buffer behind which values are written. -/
inductive WritesTo : List (Value × ColumnType) → Bytes → List (Except Error Unit) → Bytes → Prop
  | nil {buffer : Bytes} : WritesTo [] buffer [] buffer
  /-- A value of the kind of its column gets the bytes of the column. -/
  | value {v : Value} {ty : ColumnType} {fields : List (Value × ColumnType)}
    {buffer image after : Bytes} {answers : List (Except Error Unit)} (hfits : v.fits ty = true)
    (hwidth : image.length = ty.width) (hrest : WritesTo fields (buffer ++ image) answers after) :
    WritesTo ((v, ty) :: fields) buffer (.ok () :: answers) after
  /-- A value of the other kind leaves nothing behind. -/
  | refused {v : Value} {ty : ColumnType} {fields : List (Value × ColumnType)}
    {buffer after : Bytes} {answers : List (Except Error Unit)} (hfits : v.fits ty = false)
    (hrest : WritesTo fields buffer answers after) :
    WritesTo ((v, ty) :: fields) buffer (.error (.typeMismatch ty.name v.kind) :: answers) after

/-- The values that are of the kind of their columns. -/
def fitting (fields : List (Value × ColumnType)) : List (Value × ColumnType) :=
  fields.filter fun f => f.1.fits f.2

/-- The bytes of the values that are of the kind of their columns, one behind the other. -/
def image (fields : List (Value × ColumnType)) : Bytes :=
  (fields.filterMap fun f => (f.1.write f.2).toOption).flatten

section

variable {v : Value} {ty : ColumnType} {fields : List (Value × ColumnType)} {buffer bytes : Bytes}

lemma write_of_not_fits (h : v.fits ty = false) :
    v.write ty = .error (.typeMismatch ty.name v.kind) := by
  cases v <;> cases ty <;> first | rfl | cases h

lemma image_of_write (h : v.write ty = .ok bytes) :
    image ((v, ty) :: fields) = bytes ++ image fields := by
  simp [image, h, Except.toOption]

lemma image_of_not_fits (h : v.fits ty = false) : image ((v, ty) :: fields) = image fields := by
  simp [image, write_of_not_fits h, Except.toOption]

lemma fitting_of_fits (h : v.fits ty = true) :
    fitting ((v, ty) :: fields) = (v, ty) :: fitting fields := List.filter_cons_of_pos h

lemma fitting_of_not_fits (h : v.fits ty = false) :
    fitting ((v, ty) :: fields) = fitting fields := List.filter_cons_of_neg (by simp [h])

/-- Every value has the bytes of its column. -/
lemma length_image (fields : List (Value × ColumnType)) :
    (image fields).length = ColumnType.totalWidth ((fitting fields).map Prod.snd) := by
  induction fields with
  | nil => rfl
  | cons field fields ih =>
    obtain ⟨v, ty⟩ := field
    cases hfits : v.fits ty with
    | false => rw [image_of_not_fits hfits, fitting_of_not_fits hfits, ih]
    | true =>
      obtain ⟨bytes, hbytes⟩ := exists_write hfits
      rw [image_of_write hbytes, fitting_of_fits hfits, List.length_append,
        length_of_write hbytes, ih]
      rfl

/-! Behind a buffer a value is written if the buffer can hold it. -/

lemma appendBounded_of_write (h : v.write ty = .ok bytes)
    (hroom : buffer.length + ty.width ≤ Size.bufferLimit) :
    v.appendBounded ty buffer = .ok (buffer ++ bytes) := by
  rw [appendBounded, h, Size.checkBuffer, Size.within_of_le hroom]
  split <;> rfl

lemma appendBounded_of_vast (hfits : v.fits ty = true)
    (hvast : Size.bufferLimit < buffer.length + ty.width) :
    v.appendBounded ty buffer =
      .error (.violation (.sizeOutOfRange (buffer.length + ty.width))) := by
  rw [appendBounded, if_pos hfits, Size.checkBuffer, Size.within, if_neg (Nat.not_le.2 hvast)]
  rfl

lemma appendBounded_of_not_fits (hfits : v.fits ty = false) (buffer : Bytes) :
    v.appendBounded ty buffer = .error (.error (.typeMismatch ty.name v.kind)) := by
  rw [appendBounded, write_of_not_fits hfits, hfits]
  rfl

lemma writeEachBounded_of_append {after : Bytes} (h : v.appendBounded ty buffer = .ok after)
    (fields : List (Value × ColumnType)) : writeEachBounded ((v, ty) :: fields) buffer =
      (writeEachBounded fields after).map fun r => (.ok () :: r.1, r.2) := by
  simp only [writeEachBounded, h]
  rcases writeEachBounded fields after with e | r <;> rfl

lemma writeEachBounded_of_not_fits (hfits : v.fits ty = false)
    (fields : List (Value × ColumnType)) (buffer : Bytes) :
    writeEachBounded ((v, ty) :: fields) buffer = (writeEachBounded fields buffer).map
      fun r => (.error (.typeMismatch ty.name v.kind) :: r.1, r.2) := by
  simp only [writeEachBounded, appendBounded_of_not_fits hfits]
  rcases writeEachBounded fields buffer with e | r <;> rfl

end

/-- A buffer that can hold the bytes of all values gets them. -/
lemma exists_writeEachBounded (fields : List (Value × ColumnType)) {buffer : Bytes}
    (hroom : buffer.length + (image fields).length ≤ Size.bufferLimit) :
    ∃ answers, writeEachBounded fields buffer = .ok (answers, buffer ++ image fields) ∧
      WritesTo fields buffer answers (buffer ++ image fields) := by
  induction fields generalizing buffer with
  | nil =>
    have hempty : buffer ++ image [] = buffer := List.append_nil buffer
    rw [hempty]
    exact ⟨[], rfl, .nil⟩
  | cons field fields ih =>
    obtain ⟨v, ty⟩ := field
    cases hfits : v.fits ty with
    | false =>
      rw [image_of_not_fits hfits] at hroom ⊢
      obtain ⟨answers, hrest, hwrites⟩ := ih hroom
      refine ⟨_, ?_, .refused hfits hwrites⟩
      rw [writeEachBounded_of_not_fits hfits, hrest]
      rfl
    | true =>
      obtain ⟨bytes, hbytes⟩ := exists_write hfits
      have hwidth := length_of_write hbytes
      rw [image_of_write hbytes, List.length_append, ← Nat.add_assoc] at hroom
      rw [image_of_write hbytes, ← List.append_assoc]
      have hfirst : buffer.length + ty.width ≤ Size.bufferLimit := by
        rw [← hwidth]
        exact Nat.le_trans (Nat.le_add_right _ _) hroom
      rw [← List.length_append] at hroom
      obtain ⟨answers, hrest, hwrites⟩ := ih hroom
      refine ⟨_, ?_, .value hfits hwidth hwrites⟩
      rw [writeEachBounded_of_append (appendBounded_of_write hbytes hfirst), hrest]
      rfl

/-- A buffer that cannot hold the bytes of all values comes to an end at one of them. -/
lemma writeEachBounded_of_vast (fields : List (Value × ColumnType)) {buffer : Bytes}
    (hbuffer : buffer.length ≤ Size.bufferLimit)
    (hvast : Size.bufferLimit < buffer.length + (image fields).length) :
    ∃ size, writeEachBounded fields buffer = .error (.violation (.sizeOutOfRange size)) := by
  induction fields generalizing buffer with
  | nil => exact absurd hvast (Nat.not_lt.2 hbuffer)
  | cons field fields ih =>
    obtain ⟨v, ty⟩ := field
    cases hfits : v.fits ty with
    | false =>
      rw [image_of_not_fits hfits] at hvast
      obtain ⟨size, hrest⟩ := ih hbuffer hvast
      exact ⟨size, by rw [writeEachBounded_of_not_fits hfits, hrest]; rfl⟩
    | true =>
      by_cases hroom : buffer.length + ty.width ≤ Size.bufferLimit
      · obtain ⟨bytes, hbytes⟩ := exists_write hfits
        have hlength : (buffer ++ bytes).length = buffer.length + ty.width := by
          rw [List.length_append, length_of_write hbytes]
        rw [image_of_write hbytes, List.length_append, length_of_write hbytes,
          ← Nat.add_assoc] at hvast
        obtain ⟨size, hrest⟩ := ih (hlength ▸ hroom) (hlength ▸ hvast)
        exact ⟨size, by
          rw [writeEachBounded_of_append (appendBounded_of_write hbytes hroom), hrest]
          rfl⟩
      · refine ⟨buffer.length + ty.width, ?_⟩
        rw [writeEachBounded, appendBounded_of_vast hfits (Nat.not_le.1 hroom)]

/-! ## Reading what was written -/

lemma width_le_of_bounded {ty : ColumnType} (h : ty.Bounded) : ty.width ≤ Size.limit := by
  cases ty with
  | int => decide
  | text capacity =>
    calc 4 + capacity ≤ 4 + 2147483647 := Nat.add_le_add_left (h capacity rfl) 4
      _ ≤ Size.limit := by decide

/-- Values whose columns are bounded are read back behind one another, as what is kept of them. -/
lemma readEach_image {fields : List (Value × ColumnType)}
    (hbounded : ∀ f ∈ fitting fields, f.2.Bounded) (rest : Bytes) :
    readEach ((fitting fields).map Prod.snd) (image fields ++ rest) =
      ((fitting fields).map fun f => .ok (f.2.keep f.1), rest) := by
  induction fields with
  | nil => rfl
  | cons field fields ih =>
    obtain ⟨v, ty⟩ := field
    cases hfits : v.fits ty with
    | false =>
      rw [fitting_of_not_fits hfits] at hbounded ⊢
      rw [image_of_not_fits hfits, ih hbounded]
    | true =>
      obtain ⟨bytes, hbytes⟩ := exists_write hfits
      rw [fitting_of_fits hfits, List.forall_mem_cons] at hbounded
      have hlegible : ty.Legible v := hbounded.1.legible hfits
      rw [fitting_of_fits hfits, image_of_write hbytes, List.map_cons, List.append_assoc,
        readEach_append (length_of_write hbytes), readField_of_write hbytes hlegible,
        ih hbounded.2]
      rfl

/-- **Values that are read and written one behind the other.**  From any bytes, one value per type
is read as `ReadsTo` says, if the widths of the types can be counted; and behind any buffer, values
are written as `WritesTo` says, if the buffer can hold all bytes of their columns.  Otherwise
nothing comes of it.  What is written does not depend on the buffer.  If the length of every text
can be stored, then reading it with the types of the values that were of the right kind gives what
is kept of each of them: the number, or the longest prefix of the text that fits. -/
theorem readsTo_writesTo :
    (∀ types bs,
      ((∀ ty ∈ types, ty.width ≤ Size.limit) → ∃ answers left,
        readEachBounded types bs = .ok (answers, left) ∧ ReadsTo types bs answers left) ∧
      ((∃ ty ∈ types, Size.limit < ty.width) → ∃ size,
        readEachBounded types bs = .error (.violation (.sizeOutOfRange size)))) ∧
    ∀ fields : List (Value × ColumnType), ∃ output : Bytes,
      output.length = ColumnType.totalWidth ((fitting fields).map Prod.snd) ∧
      (∀ buffer : Bytes, buffer.length ≤ Size.bufferLimit →
        (buffer.length + output.length ≤ Size.bufferLimit → ∃ answers,
          writeEachBounded fields buffer = .ok (answers, buffer ++ output) ∧
            WritesTo fields buffer answers (buffer ++ output)) ∧
        (Size.bufferLimit < buffer.length + output.length → ∃ size,
          writeEachBounded fields buffer = .error (.violation (.sizeOutOfRange size)))) ∧
      ((∀ f ∈ fitting fields, f.2.Bounded) → ∀ rest, ∃ values : List Value,
        readEachBounded ((fitting fields).map Prod.snd) (output ++ rest) =
            .ok (values.map .ok, rest) ∧
          List.Forall₂ (fun f v => f.2.Keeps f.1 v) (fitting fields) values) := by
  refine ⟨fun types bs => ⟨fun h => ⟨_, _, readEachBounded_of_le h bs, readsTo_readEach types bs⟩,
    fun h => readEachBounded_of_vast h bs⟩, fun fields => ⟨image fields, length_image fields,
      fun buffer hbuffer => ⟨exists_writeEachBounded fields,
        writeEachBounded_of_vast fields hbuffer⟩, fun hbounded rest => ?_⟩⟩
  have hwidths : ∀ ty ∈ (fitting fields).map Prod.snd, ty.width ≤ Size.limit :=
    List.forall_mem_map.2 fun f hf => width_le_of_bounded (hbounded f hf)
  refine ⟨(fitting fields).map fun f => f.2.keep f.1, ?_, ?_⟩
  · rw [readEachBounded_of_le hwidths, readEach_image hbounded, List.map_map]
    rfl
  · rw [List.forall₂_map_right_iff, List.forall₂_same]
    intro f hf
    exact ColumnType.keeps_keep (List.mem_filter.1 hf).2

/-- A number, a text that is cut in front of its last character, a value of the wrong kind, and a
text without bytes. -/
def mixed : List (Value × ColumnType) :=
  [(.int (-2), .int), (.text "aé", .text 2), (.int 5, .text 3), (.text "", .text 0)]

/-- The value of the wrong kind leaves no bytes, so the others are read from one run of bytes. -/
theorem readsTo_writesTo_mixed :
    fitting mixed = [(.int (-2), .int), (.text "aé", .text 2), (.text "", .text 0)] ∧
      (∀ f ∈ fitting mixed, f.2.Bounded) ∧
      ∃ output : Bytes, output.length = 14 ∧
        (∃ answers, writeEachBounded mixed [9] = .ok (answers, [9] ++ output) ∧
          WritesTo mixed [9] answers ([9] ++ output)) ∧
        ∃ values, readEachBounded [.int, .text 2, .text 0] (output ++ [9]) =
            .ok (values.map .ok, [9]) ∧
          List.Forall₂ (fun f v => f.2.Keeps f.1 v) (fitting mixed) values := by
  have hbounded : ∀ f ∈ fitting mixed, f.2.Bounded := by
    intro f hf capacity hcapacity
    have hmem : f ∈ mixed := (List.mem_filter.1 hf).1
    simp only [mixed, List.mem_cons, List.not_mem_nil, or_false] at hmem
    obtain rfl | rfl | rfl | rfl := hmem <;> cases hcapacity <;> decide
  obtain ⟨output, hlength, hwrite, hread⟩ := readsTo_writesTo.2 mixed
  replace hlength : output.length = 14 := hlength
  refine ⟨rfl, hbounded, output, hlength, ?_, hread hbounded [9]⟩
  exact (hwrite [9] (by decide)).1 (by rw [hlength]; decide)

/-- **A text can be of the kind of its column and not be written.**  The column has more bytes than
a buffer can hold, although they can be counted. -/
theorem writeBounded_vast : fits (.text "x") (.text 9223372036854775808) = true ∧
    (ColumnType.text 9223372036854775808).width ≤ Size.limit ∧
      writeBounded (.text "x") (.text 9223372036854775808) =
        .error (.violation (.sizeOutOfRange 9223372036854775812)) :=
  ⟨rfl, by decide, appendBounded_of_vast rfl (by decide)⟩

end Value

end RowStore
