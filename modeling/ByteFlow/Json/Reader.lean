import ByteFlow.Json.Value

/-!
# Reading JSON

The text of one value, with blanks around it and nothing else.  The grammar is the
standard one: no comments, no commas at the end of a list, no numbers with zeros
in front, no bare control characters in strings.

A value is read off the front of a list of characters.  Each step is given an upper
bound on the nesting that is left, computed from the length of the text.

## Main definitions

* `Json.parse` — the value that a text denotes, if it denotes one.
* `Json.Reader.number`, `Json.Reader.stringBody`, `Json.Reader.value` — the parts.
-/

namespace ByteFlow.Json.Reader

/-- A blank between the tokens. -/
def isBlank (c : Char) : Bool := c == ' ' || c == '\n' || c == '\t' || c == '\r'

/-- The text without the blanks in front. -/
def skipBlanks (text : List Char) : List Char := text.dropWhile isBlank

/-- The text behind a given word. -/
def expect : (word text : List Char) → Option (List Char)
  | [], text => some text
  | c :: word, d :: text => if c = d then expect word text else none
  | _ :: _, [] => none

/-! ## Numbers -/

/-- The digits in front of a text, of which there has to be one, and the rest. -/
def digits (text : List Char) : Option (List Char × List Char) :=
  match text.span Char.isDigit with
  | ([], _) => none
  | (found, rest) => some (found, rest)

/-- The whole part of a number: a zero alone, or digits of which the first is not
zero. -/
def wholePart : List Char → Option (List Char × List Char)
  | '0' :: rest => some (['0'], rest)
  | text => digits text

/-- The fraction behind a whole part, with its point; it may be missing. -/
def fraction : List Char → Option (List Char × List Char)
  | '.' :: rest => (digits rest).map fun (found, rest) => ('.' :: found, rest)
  | rest => some ([], rest)

/-- The digits of an exponent, with its sign; the sign may be missing. -/
def signedDigits : List Char → Option (List Char × List Char)
  | '+' :: rest => (digits rest).map fun (found, rest) => ('+' :: found, rest)
  | '-' :: rest => (digits rest).map fun (found, rest) => ('-' :: found, rest)
  | rest => digits rest

/-- The exponent of a number, with its letter; it may be missing. -/
def exponent : List Char → Option (List Char × List Char)
  | 'e' :: rest => (signedDigits rest).map fun (found, rest) => ('e' :: found, rest)
  | 'E' :: rest => (signedDigits rest).map fun (found, rest) => ('E' :: found, rest)
  | rest => some ([], rest)

/-- The number that decimal digits denote. -/
def ofDigits (found : List Char) : Nat :=
  found.foldl (fun n c => 10 * n + (c.toNat - '0'.toNat)) 0

/-- A number and the rest of the text. -/
def number (text : List Char) : Option (Number × List Char) := do
  let (sign, rest) :=
    match text with
    | '-' :: rest => (['-'], rest)
    | rest => ([], rest)
  let (whole, rest) ← wholePart rest
  let (fraction, rest) ← fraction rest
  let (exponent, rest) ← exponent rest
  match sign, fraction, exponent with
  | [], [], [] => some (.natural (ofDigits whole), rest)
  | _, _, _ => some (.other (String.ofList (sign ++ whole ++ fraction ++ exponent)), rest)

/-! ## Strings -/

/-- The value of a hexadecimal digit. -/
def hexDigit? (c : Char) : Option Nat :=
  if c.isDigit then some (c.toNat - '0'.toNat)
  else if 'a' ≤ c && c ≤ 'f' then some (c.toNat - 'a'.toNat + 10)
  else if 'A' ≤ c && c ≤ 'F' then some (c.toNat - 'A'.toNat + 10)
  else none

/-- The code unit that four hexadecimal digits denote. -/
def hexUnit? (a b c d : Char) : Option UInt16 := do
  let a ← hexDigit? a
  let b ← hexDigit? b
  let c ← hexDigit? c
  let d ← hexDigit? d
  some (((a * 16 + b) * 16 + c) * 16 + d).toUInt16

/-- The character that a one-letter escape denotes. -/
def escaped? : Char → Option Char
  | '"' => some '"'
  | '\\' => some '\\'
  | '/' => some '/'
  | 'b' => some '\x08'
  | 'f' => some '\x0c'
  | 'n' => some '\n'
  | 'r' => some '\r'
  | 't' => some '\t'
  | _ => none

/-- The code units up to the closing quote, and the rest of the text.  `found` holds
the units so far, the latest one first. -/
def stringBody (found : List UInt16) : List Char → Option (List UInt16 × List Char)
  | [] => none
  | '"' :: rest => some (found.reverse, rest)
  | '\\' :: 'u' :: a :: b :: c :: d :: rest =>
    match hexUnit? a b c d with
    | some unit => stringBody (unit :: found) rest
    | none => none
  | '\\' :: c :: rest =>
    match escaped? c with
    | some c => stringBody ((Text.Utf16.units c).reverse ++ found) rest
    | none => none
  | c :: rest =>
    if c.toNat < 0x20 then none
    else stringBody ((Text.Utf16.units c).reverse ++ found) rest

/-- The name of a member, from its opening quote on, and the text behind the colon. -/
def memberName (text : List Char) : Option (List UInt16 × List Char) := do
  let rest ← expect ['"'] (skipBlanks text)
  let (name, rest) ← stringBody [] rest
  let rest ← expect [':'] (skipBlanks rest)
  some (name, rest)

/-! ## Values -/

mutual

/-- A value and the rest of the text. -/
def value : (depth : Nat) → List Char → Option (Json × List Char)
  | 0, _ => none
  | depth + 1, text =>
    match skipBlanks text with
    | 'n' :: rest => (expect ['u', 'l', 'l'] rest).map (null, ·)
    | 't' :: rest => (expect ['r', 'u', 'e'] rest).map (bool true, ·)
    | 'f' :: rest => (expect ['a', 'l', 's', 'e'] rest).map (bool false, ·)
    | '"' :: rest => (stringBody [] rest).map fun (units, rest) => (string units, rest)
    | '[' :: rest =>
      match skipBlanks rest with
      | ']' :: rest => some (array [], rest)
      | rest => (items depth rest).map fun (found, rest) => (array found, rest)
    | '{' :: rest =>
      match skipBlanks rest with
      | '}' :: rest => some (object [], rest)
      | rest => (members depth rest).map fun (found, rest) => (object found, rest)
    | rest => (Reader.number rest).map fun (n, rest) => (Json.number n, rest)

/-- The items of an array, at least one, up to the closing bracket. -/
def items : (depth : Nat) → List Char → Option (List Json × List Char)
  | 0, _ => none
  | depth + 1, text =>
    match value depth text with
    | none => none
    | some (item, rest) =>
      match skipBlanks rest with
      | ',' :: rest => (items depth rest).map fun (found, rest) => (item :: found, rest)
      | ']' :: rest => some ([item], rest)
      | _ => none

/-- The members of an object, at least one, up to the closing brace. -/
def members : (depth : Nat) → List Char → Option (List (List UInt16 × Json) × List Char)
  | 0, _ => none
  | depth + 1, text =>
    match memberName text with
    | none => none
    | some (name, rest) =>
      match value depth rest with
      | none => none
      | some (item, rest) =>
        match skipBlanks rest with
        | ',' :: rest =>
          (members depth rest).map fun (found, rest) => ((name, item) :: found, rest)
        | '}' :: rest => some ([(name, item)], rest)
        | _ => none

end

end ByteFlow.Json.Reader

namespace ByteFlow.Json

/-- The value that a text denotes, if it denotes one. -/
def parse (text : String) : Option Json :=
  let text := text.toList
  match Reader.value (2 * text.length + 2) text with
  | some (value, rest) => if (Reader.skipBlanks rest).isEmpty then some value else none
  | none => none

end ByteFlow.Json
