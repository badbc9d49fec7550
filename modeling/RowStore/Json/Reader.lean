import RowStore.Json.Value

/-!
# Reading JSON

The grammar is that of the standard and nothing else: no comments, no trailing commas, no leading
zeros or signs, no control characters in strings, and nothing but blanks around the document.  How
deep arrays and objects are nested does not matter.

A reader takes characters from the front and gives what it read with the rest, or nothing.  Values
are read with an allowance for nesting.  Every step down takes a character from the input at least
every second time, so twice the length of the input is always enough.
-/

namespace RowStore.JsonReader

/-! ## Blanks and strings -/

/-- The characters that may stand between the parts of a document. -/
def isBlank (c : Char) : Bool := c = ' ' || c = '\t' || c = '\n' || c = '\r'

/-- What comes after blanks. -/
def skipBlanks (cs : List Char) : List Char := cs.dropWhile isBlank

/-- The value of a hexadecimal digit. -/
def hexValue? (c : Char) : Option Nat :=
  if '0' ≤ c ∧ c ≤ '9' then some (c.toNat - 48)
  else if 'a' ≤ c ∧ c ≤ 'f' then some (c.toNat - 87)
  else if 'A' ≤ c ∧ c ≤ 'F' then some (c.toNat - 55)
  else none

/-- The number in four hexadecimal digits. -/
def hexCode? (a b c d : Char) : Option Nat := do
  return (((← hexValue? a) * 16 + (← hexValue? b)) * 16 + (← hexValue? c)) * 16 + (← hexValue? d)

/-- The character of an escape of one letter. -/
def escaped? : Char → Option Char
  | '"' => some '"'
  | '\\' => some '\\'
  | '/' => some '/'
  | 'b' => some '\x08'
  | 'f' => some '\x0c'
  | 'n' => some '\n'
  | 'r' => some '\r'
  | 't' => some '\t'
  | _ => none

/-- Reads the rest of a string behind its first quote, after the units read so far, of which the
last comes first. -/
def stringBody (read : JsonString) : List Char → Option (JsonString × List Char)
  | '"' :: rest => some (read.reverse, rest)
  | '\\' :: 'u' :: a :: b :: c :: d :: rest =>
    match hexCode? a b c d with
    | some code => stringBody (.escape code :: read) rest
    | none => none
  | '\\' :: c :: rest =>
    match escaped? c with
    | some c => stringBody (.char c :: read) rest
    | none => none
  | c :: rest => if c.toNat < 0x20 then none else stringBody (.char c :: read) rest
  | [] => none

/-! ## Numbers -/

/-- Reads at least one digit. -/
def digits (cs : List Char) : Option (List Char × List Char) :=
  match cs.span Char.isDigit with
  | ([], _) => none
  | (ds, rest) => some (ds, rest)

/-- Reads the digits before the point: a zero alone, or digits that begin with another. -/
def wholePart : List Char → Option (List Char × List Char)
  | '0' :: rest => some (['0'], rest)
  | cs => digits cs

/-- Reads a point with digits behind it, if there is one. -/
def fractionPart : List Char → Option (List Char × List Char)
  | '.' :: rest => (digits rest).map fun (ds, rest) => ('.' :: ds, rest)
  | cs => some ([], cs)

/-- Reads the sign of an exponent, if there is one. -/
def signPart : List Char → List Char × List Char
  | '+' :: rest => (['+'], rest)
  | '-' :: rest => (['-'], rest)
  | cs => ([], cs)

/-- Reads an exponent, if there is one. -/
def exponentPart : List Char → Option (List Char × List Char)
  | c :: rest =>
    if c = 'e' ∨ c = 'E' then
      let (sign, rest) := signPart rest
      (digits rest).map fun (ds, rest) => (c :: sign ++ ds, rest)
    else some ([], c :: rest)
  | [] => some ([], [])

/-- Reads the sign of a number, if there is one. -/
def minusPart : List Char → List Char × List Char
  | '-' :: rest => (['-'], rest)
  | cs => ([], cs)

/-- Reads a number. -/
def number (cs : List Char) : Option (String × List Char) := do
  let (minus, cs) := minusPart cs
  let (whole, cs) ← wholePart cs
  let (fraction, cs) ← fractionPart cs
  let (exponent, cs) ← exponentPart cs
  return (String.ofList (minus ++ whole ++ fraction ++ exponent), cs)

/-! ## Values -/

mutual

/-- Reads a value. -/
def value : Nat → List Char → Option (JsonValue × List Char)
  | 0, _ => none
  | allowance + 1, cs =>
    match skipBlanks cs with
    | '"' :: rest => (stringBody [] rest).map fun (s, rest) => (.string s, rest)
    | '[' :: rest =>
      match skipBlanks rest with
      | ']' :: rest => some (.array [], rest)
      | rest => (items allowance rest []).map fun (vs, rest) => (.array vs, rest)
    | '{' :: rest =>
      match skipBlanks rest with
      | '}' :: rest => some (.object [], rest)
      | rest => (members allowance rest []).map fun (ms, rest) => (.object ms, rest)
    | 'n' :: 'u' :: 'l' :: 'l' :: rest => some (.null, rest)
    | 't' :: 'r' :: 'u' :: 'e' :: rest => some (.bool true, rest)
    | 'f' :: 'a' :: 'l' :: 's' :: 'e' :: rest => some (.bool false, rest)
    | rest => (number rest).map fun (literal, rest) => (.number literal, rest)

/-- Reads the items of an array up to its end, after those read so far, of which the last comes
first. -/
def items : Nat → List Char → List JsonValue → Option (List JsonValue × List Char)
  | 0, _, _ => none
  | allowance + 1, cs, read =>
    match value allowance cs with
    | none => none
    | some (v, rest) =>
      match skipBlanks rest with
      | ',' :: rest => items allowance rest (v :: read)
      | ']' :: rest => some ((v :: read).reverse, rest)
      | _ => none

/-- Reads the members of an object up to its end, after those read so far, of which the last comes
first. -/
def members : Nat → List Char → List (JsonString × JsonValue) →
    Option (List (JsonString × JsonValue) × List Char)
  | 0, _, _ => none
  | allowance + 1, cs, read =>
    match skipBlanks cs with
    | '"' :: rest =>
      match stringBody [] rest with
      | none => none
      | some (key, rest) =>
        match skipBlanks rest with
        | ':' :: rest =>
          match value allowance rest with
          | none => none
          | some (v, rest) =>
            match skipBlanks rest with
            | ',' :: rest => members allowance rest ((key, v) :: read)
            | '}' :: rest => some (((key, v) :: read).reverse, rest)
            | _ => none
        | _ => none
    | _ => none

end

end RowStore.JsonReader

namespace RowStore

/-- Reads a document. -/
def JsonValue.parse? (text : String) : Option JsonValue :=
  let cs := text.toList
  match JsonReader.value (2 * cs.length + 2) cs with
  | some (v, rest) => if (JsonReader.skipBlanks rest).isEmpty then some v else none
  | none => none

end RowStore
