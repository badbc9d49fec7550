/-!
# JSON documents

A document is kept as it is written as far as that can matter later: numbers as their text, members
of an object in order and with repetitions, and strings as units, since an escape can name half of
a surrogate pair.  `JsonValue.compact` writes a document without blanks.
-/

namespace RowStore

/-! ## Strings -/

/-- What a string is written with: characters, and escapes that give a number of 16 bits. -/
inductive JsonUnit where
  | char (c : Char)
  | escape (code : Nat)
  deriving DecidableEq, Repr

/-- A string of a document. -/
abbrev JsonString := List JsonUnit

namespace JsonString

/-- The string with the given characters. -/
def ofText (s : String) : JsonString := s.toList.map .char

/-- The characters of a string.  There are none if an escape names half of a surrogate pair and the
other half does not follow. -/
def chars? : JsonString → Option (List Char)
  | [] => some []
  | .char c :: rest => (chars? rest).map (c :: ·)
  | .escape high :: .escape low :: rest =>
    if 0xD800 ≤ high ∧ high < 0xDC00 then
      if 0xDC00 ≤ low ∧ low < 0xE000 then
        (chars? rest).map (Char.ofNat (0x10000 + (high - 0xD800) * 0x400 + (low - 0xDC00)) :: ·)
      else none
    else if 0xDC00 ≤ high ∧ high < 0xE000 then none
    else (chars? (.escape low :: rest)).map (Char.ofNat high :: ·)
  | .escape code :: rest =>
    if 0xD800 ≤ code ∧ code < 0xE000 then none else (chars? rest).map (Char.ofNat code :: ·)

/-- The text of a string. -/
def text? (s : JsonString) : Option String := (chars? s).map String.ofList

/-- A number of 16 bits in four hexadecimal digits. -/
def hexDigits (code : Nat) : List Char :=
  [Nat.digitChar (code / 4096 % 16), Nat.digitChar (code / 256 % 16),
    Nat.digitChar (code / 16 % 16), Nat.digitChar (code % 16)]

/-- The written form of a unit.  Quotes, backslashes and control characters are escaped. -/
def unitText : JsonUnit → List Char
  | .escape code => '\\' :: 'u' :: hexDigits code
  | .char '"' => ['\\', '"']
  | .char '\\' => ['\\', '\\']
  | .char '\x08' => ['\\', 'b']
  | .char '\t' => ['\\', 't']
  | .char '\n' => ['\\', 'n']
  | .char '\x0c' => ['\\', 'f']
  | .char '\r' => ['\\', 'r']
  | .char c => if c.toNat < 0x20 then '\\' :: 'u' :: hexDigits c.toNat else [c]

/-- The written form of a string. -/
def compact (s : JsonString) : String :=
  "\"" ++ String.ofList (s.flatMap unitText) ++ "\""

end JsonString

/-! ## Values -/

/-- A JSON document. -/
inductive JsonValue where
  | null
  | bool (b : Bool)
  | number (literal : String)
  | string (s : JsonString)
  | array (items : List JsonValue)
  | object (members : List (JsonString × JsonValue))

namespace JsonValue

/-- The document that is a natural number. -/
def ofNat (n : Nat) : JsonValue := number (toString n)

/-- The document that is a text. -/
def ofText (s : String) : JsonValue := string (JsonString.ofText s)

/-- The object with the given members. -/
def ofMembers (members : List (String × JsonValue)) : JsonValue :=
  object (members.map fun (key, value) => (JsonString.ofText key, value))

/-- The text of a document that is a string. -/
def text? : JsonValue → Option String
  | string s => JsonString.text? s
  | _ => none

/-- The number of a document that is written as a natural number, with digits alone. -/
def natural? : JsonValue → Option Nat
  | number literal => literal.toList.foldl
      (fun n c => n.bind fun n => if c.isDigit then some (n * 10 + (c.toNat - 48)) else none)
      (some 0)
  | _ => none

/-- The number of a document that is a natural number of at most so many bits. -/
def word? (bits : Nat) (v : JsonValue) : Option Nat :=
  v.natural?.filter fun n => decide (n < 1 <<< bits)

/-- The written form of a document, without blanks. -/
def compact : JsonValue → String
  | null => "null"
  | bool true => "true"
  | bool false => "false"
  | number literal => literal
  | string s => JsonString.compact s
  | array items => "[" ++ ",".intercalate (compactItems items) ++ "]"
  | object members => "\x7b" ++ ",".intercalate (compactMembers members) ++ "\x7d"
where
  /-- The written forms of the items of an array. -/
  compactItems : List JsonValue → List String
    | [] => []
    | v :: rest => compact v :: compactItems rest
  /-- The written forms of the members of an object. -/
  compactMembers : List (JsonString × JsonValue) → List String
    | [] => []
    | (key, v) :: rest => (JsonString.compact key ++ ":" ++ compact v) :: compactMembers rest

end JsonValue

end RowStore
