import ByteFlow.Text.Utf16

/-!
# JSON values

Only whole numbers from zero on are ever needed, so any other number is kept as it
was written.  A string is a sequence of UTF-16 code units, because an escape can
denote a surrogate that is not part of a pair; this holds for a member's name too.
Members keep their order, and a name may come twice.

Where an object stands for a record its members are fields, and their names have to
be texts.

## Main definitions

* `Json` — the values.
* `Json.Number` — numbers as they were written.
* `Json.natural?`, `Json.text?` — reading simple values back.
* `Json.ofFields`, `Json.fields?` — objects as records.
* `Json.lookUp`, `Json.require` — the one field of a given name.
-/

namespace ByteFlow

/-- A number as it was written. -/
inductive Json.Number where
  /-- Digits alone, without a zero in front that is not the whole number. -/
  | natural (n : Nat)
  /-- Any other number: with a sign, a fraction or an exponent. -/
  | other (written : String)
  deriving DecidableEq, Repr

/-- A JSON value. -/
inductive Json where
  | null
  | bool (value : Bool)
  | number (value : Json.Number)
  | string (units : List UInt16)
  | array (items : List Json)
  | object (members : List (List UInt16 × Json))

namespace Json

/-- A number from zero on as a value. -/
def ofNat (n : Nat) : Json := number (.natural n)

/-- A text as a value. -/
def ofString (text : String) : Json := string (Text.Utf16.encode text)

/-- The number that a value is, if it is one from zero up to `most`. -/
def natural? (most : Nat) : Json → Option Nat
  | number (.natural n) => if n ≤ most then some n else none
  | _ => none

/-- The text that a value is. -/
def text? : Json → Option String
  | string units => Text.Utf16.decode units
  | _ => none

/-- A record as a value. -/
def ofFields (fields : List (String × Json)) : Json :=
  object (fields.map fun (name, value) => (Text.Utf16.encode name, value))

/-- The fields of the record that a value is. -/
def fields? : Json → Option (List (String × Json))
  | object members =>
    members.mapM fun (units, value) => (Text.Utf16.decode units).map fun name => (name, value)
  | _ => none

/-- The value of the field with the given name.  It is an error that there are two of
them, and none that there is none. -/
def lookUp (name : String) (fields : List (String × Json)) : Option (Option Json) :=
  match fields.filter fun (key, _) => key == name with
  | [] => some none
  | [(_, value)] => some (some value)
  | _ => none

/-- The value of the field with the given name, which has to be there once. -/
def require (name : String) (fields : List (String × Json)) : Option Json :=
  (lookUp name fields).join

/-- The entry of a list of names and values that a value names: either by the name as
a text, or as a record with a field of that name and nothing in it. -/
def named? {α : Type} (entries : List (String × α)) (value : Json) : Option α :=
  match value.text?, value.fields? with
  | some name, _ => entries.lookup name
  | none, some [(name, null)] => entries.lookup name
  | none, _ => none

end Json

end ByteFlow
