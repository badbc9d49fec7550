import RowStore.Data.Bytes

/-!
# Text as bytes

A text column stores the UTF-8 form of its value in a field of fixed width.  Three things are
needed of that form and all of them are here:

* `Utf8.encode`, the bytes of a text, and the order of texts by those bytes (`Utf8.order`);
* `Utf8.cut`, the longest prefix of a text that fits into a given number of bytes without dividing
  a character;
* `Utf8.decode`, which reads any bytes at all: well-formed sequences become their characters, and
  each maximal run of bytes that begins like a character and then breaks off becomes one
  replacement character.

The reader is a machine over single bytes.  Between characters it holds nothing; inside one it
holds a `Utf8.Partial`, which says how many bytes are owed and in which range the next one has to
lie.  The narrowed ranges after the leads `E0`, `ED`, `F0` and `F4` are what excludes overlong
forms, surrogates and code points above `10FFFF`, so `Char.ofNat` is only asked for characters.
-/

namespace RowStore

namespace Utf8

/-! ## Encoding and order -/

/-- The UTF-8 bytes of a text. -/
def encode (s : String) : Bytes :=
  s.toList.flatMap String.utf8EncodeChar

/-- Texts ordered lexicographically by their bytes. -/
def order (s t : String) : Ordering :=
  compare (encode s) (encode t)

/-! ## Cutting at a character boundary -/

/-- The longest prefix of `cs` whose characters occupy at most `limit` bytes together. -/
def cutChars : Nat → List Char → List Char
  | _, [] => []
  | limit, c :: cs => if c.utf8Size ≤ limit then c :: cutChars (limit - c.utf8Size) cs else []

/-- The longest prefix of a text that occupies at most `limit` bytes. -/
def cut (limit : Nat) (s : String) : String :=
  String.ofList (cutChars limit s.toList)

/-! ## Decoding -/

/-- The character that stands for bytes that form none. -/
def replacement : Char := '\uFFFD'

/-- A character of which some bytes are read: `owed` more are missing, the next one has to lie
between `low` and `high`, and `bits` holds the payload so far. -/
structure Partial where
  owed : Nat
  low : UInt8
  high : UInt8
  bits : Nat
  deriving DecidableEq, Repr

/-- What the first byte of a character of several bytes promises; none if it can begin none. -/
def lead? (b : UInt8) : Option Partial :=
  let n := b.toNat
  if 0xC2 ≤ n ∧ n ≤ 0xDF then some ⟨1, 0x80, 0xBF, n % 32⟩
  else if n = 0xE0 then some ⟨2, 0xA0, 0xBF, n % 16⟩
  else if n = 0xED then some ⟨2, 0x80, 0x9F, n % 16⟩
  else if 0xE1 ≤ n ∧ n ≤ 0xEF then some ⟨2, 0x80, 0xBF, n % 16⟩
  else if n = 0xF0 then some ⟨3, 0x90, 0xBF, n % 8⟩
  else if 0xF1 ≤ n ∧ n ≤ 0xF3 then some ⟨3, 0x80, 0xBF, n % 8⟩
  else if n = 0xF4 then some ⟨3, 0x80, 0x8F, n % 8⟩
  else none

/-- A character read so far is continued by `b` exactly if `b` lies in the announced range. -/
def Partial.admits (p : Partial) (b : UInt8) : Bool :=
  p.low ≤ b && b ≤ p.high

/-- The payload after one more byte, which adds its low six bits. -/
def Partial.extend (p : Partial) (b : UInt8) : Nat :=
  p.bits * 64 + b.toNat % 64

/-- What a byte does between characters: the characters it completes, and the character it
begins. -/
def begin (b : UInt8) : List Char × Option Partial :=
  if b < 0x80 then ([Char.ofNat b.toNat], none)
  else
    match lead? b with
    | some p => ([], some p)
    | none => ([replacement], none)

/-- One byte of the reader: the characters that are settled by it, and what is pending after it.
A byte that does not continue the pending character replaces what was read of it and then counts
as the first byte of the next. -/
def step (pending : Option Partial) (b : UInt8) : List Char × Option Partial :=
  match pending with
  | none => begin b
  | some p =>
    if p.admits b then
      if p.owed ≤ 1 then ([Char.ofNat (p.extend b)], none)
      else ([], some ⟨p.owed - 1, 0x80, 0xBF, p.extend b⟩)
    else
      let (cs, next) := begin b
      (replacement :: cs, next)

/-- The characters of a byte sequence read from a given state.  Bytes that end inside a character
leave one replacement character. -/
def decodeFrom : Option Partial → Bytes → List Char
  | none, [] => []
  | some _, [] => [replacement]
  | pending, b :: rest =>
    let (cs, next) := step pending b
    cs ++ decodeFrom next rest

/-- The text of any byte sequence, with replacement characters where it is not UTF-8. -/
def decode (bytes : Bytes) : String :=
  String.ofList (decodeFrom none bytes)

/-! ## Substrings -/

/-- Whether `needle` occurs in a list of characters at consecutive positions. -/
def occursIn (needle : List Char) : List Char → Bool
  | [] => needle.isEmpty
  | c :: cs => needle.isPrefixOf (c :: cs) || occursIn needle cs

/-- Whether `needle` occurs in `hay`; the empty text occurs everywhere. -/
def contains (hay needle : String) : Bool :=
  occursIn needle.toList hay.toList

end Utf8

end RowStore
