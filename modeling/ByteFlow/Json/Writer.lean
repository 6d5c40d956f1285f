import ByteFlow.Json.Value
import ByteFlow.Text.Hex

/-!
# Writing JSON

The shortest text of a value: no blanks, members in their order.

## Main definitions

* `Json.write` — the text of a value.
-/

namespace ByteFlow.Json

/-- How one code unit of a string is written.  Whatever is not a plain ASCII character
is written by its number. -/
def writeUnit (unit : UInt16) : List Char :=
  if unit = 0x22 then ['\\', '"']
  else if unit = 0x5C then ['\\', '\\']
  else if 0x20 ≤ unit && unit < 0x7F then [Char.ofNat unit.toNat]
  else '\\' :: 'u' :: (Text.hex 4 unit.toNat).toList

/-- A string between its quotes. -/
def writeString (units : List UInt16) : List Char :=
  '"' :: units.flatMap writeUnit ++ ['"']

/-- A number as it was written. -/
def writeNumber : Number → List Char
  | .natural n => (toString n).toList
  | .other written => written.toList

mutual

/-- The characters of a value. -/
def writeValue : Json → List Char
  | null => "null".toList
  | bool true => "true".toList
  | bool false => "false".toList
  | number value => writeNumber value
  | string units => writeString units
  | array items => '[' :: writeItems items ++ [']']
  | object members => '{' :: writeMembers members ++ ['}']

/-- The items of an array, with commas between them. -/
def writeItems : List Json → List Char
  | [] => []
  | [item] => writeValue item
  | item :: rest => writeValue item ++ ',' :: writeItems rest

/-- The members of an object, with commas between them. -/
def writeMembers : List (List UInt16 × Json) → List Char
  | [] => []
  | [(name, item)] => writeString name ++ ':' :: writeValue item
  | (name, item) :: rest =>
    writeString name ++ ':' :: writeValue item ++ ',' :: writeMembers rest

end

/-- The text of a value. -/
def write (value : Json) : String := String.ofList (writeValue value)

end ByteFlow.Json
