import ByteFlow.Json.Value

/-!
# The grammar of JSON

Which texts denote a value is said here by rules, without a reader.  They are the usual rules:
blanks may stand around every token, but inside none; a number has no zero in front and no sign
but a minus; a character of a string may be written as it is or escaped, in more than one way.

A text that ends in a number is only read right if no further digit follows, so what can follow a
value in a document is a matter of its own.

## Main definitions

* `Json.Blank` — blanks and nothing else.
* `Json.Whole`, `Json.Fraction`, `Json.Exponent`, `Json.Number.Written` — numbers.
* `Json.hexDigits`, `Json.escapes`, `Json.WrittenUnits` — what stands between quotes.
* `Json.Written`, `Json.WrittenItems`, `Json.WrittenMembers` — values.
* `Json.Document v text` — the text is one value, with blanks around it.
-/

namespace ByteFlow.Json

/-- The characters that may stand between tokens. -/
def blanks : List Char := [' ', '\n', '\t', '\r']

/-- Blanks and nothing else, or nothing at all. -/
def Blank (text : List Char) : Prop := ∀ c ∈ text, c ∈ blanks

/-! ## Numbers -/

/-- One digit or more. -/
structure Digits (text : List Char) : Prop where
  ne_nil : text ≠ []
  isDigit : ∀ c ∈ text, c.isDigit = true

/-- A zero alone, or digits of which the first is not zero. -/
inductive Whole : List Char → Prop
  | zero : Whole ['0']
  | digits {text} : Digits text → text.head? ≠ some '0' → Whole text

theorem Whole.exists_cons {text : List Char} (h : Whole text) :
    ∃ c rest, text = c :: rest ∧ c.isDigit = true := by
  cases h with
  | zero => exact ⟨'0', [], rfl, rfl⟩
  | digits hdigits _ =>
    obtain ⟨c, rest, rfl⟩ := List.exists_cons_of_ne_nil hdigits.ne_nil
    exact ⟨c, rest, rfl, hdigits.isDigit c (List.mem_cons_self ..)⟩

/-- A point and digits, or nothing. -/
inductive Fraction : List Char → Prop
  | none : Fraction []
  | some {text} : Digits text → Fraction ('.' :: text)

/-- Digits, with a sign in front or without one. -/
inductive SignedDigits : List Char → Prop
  | mk (sign) {text} : sign ∈ [[], ['+'], ['-']] → Digits text → SignedDigits (sign ++ text)

/-- A letter and digits, with a sign or without one, or nothing. -/
inductive Exponent : List Char → Prop
  | none : Exponent []
  | some {letter text} : letter ∈ ['e', 'E'] → SignedDigits text → Exponent (letter :: text)

/-- How a number is written. -/
inductive Number.Written : Number → List Char → Prop
  | natural {whole} : Whole whole → Written (.natural (Nat.ofDigitChars 10 whole 0)) whole
  | other {sign whole fraction exponent} : sign ∈ [[], ['-']] → Whole whole →
    Fraction fraction → Exponent exponent → sign ++ fraction ++ exponent ≠ [] →
    Written (.other (String.ofList (sign ++ whole ++ fraction ++ exponent)))
      (sign ++ whole ++ fraction ++ exponent)

/-- A number begins with a digit or with a minus. -/
theorem Number.Written.exists_cons {n : Number} {text : List Char} (h : n.Written text) :
    ∃ c rest, text = c :: rest ∧ (c.isDigit = true ∨ c = '-') := by
  cases h with
  | natural hwhole =>
    obtain ⟨c, rest, rfl, hc⟩ := hwhole.exists_cons
    exact ⟨c, rest, rfl, .inl hc⟩
  | other hsign hwhole _ _ _ =>
    simp only [List.mem_cons, List.not_mem_nil, or_false] at hsign
    rcases hsign with rfl | rfl
    · obtain ⟨c, rest, rfl, hc⟩ := hwhole.exists_cons
      exact ⟨c, _, rfl, .inl hc⟩
    · exact ⟨'-', _, rfl, .inr rfl⟩

/-! ## Strings -/

/-- The hexadecimal digits and their values. -/
def hexDigits : List (Char × Nat) :=
  [('0', 0), ('1', 1), ('2', 2), ('3', 3), ('4', 4), ('5', 5), ('6', 6), ('7', 7), ('8', 8),
    ('9', 9), ('a', 10), ('b', 11), ('c', 12), ('d', 13), ('e', 14), ('f', 15), ('A', 10),
    ('B', 11), ('C', 12), ('D', 13), ('E', 14), ('F', 15)]

/-- The letters that may follow a backslash, and the characters that they stand for. -/
def escapes : List (Char × Char) :=
  [('"', '"'), ('\\', '\\'), ('/', '/'), ('b', '\x08'), ('f', '\x0c'), ('n', '\n'), ('r', '\r'),
    ('t', '\t')]

/-- How the code units of a string are written between its quotes. -/
inductive WrittenUnits : List UInt16 → List Char → Prop
  | nil : WrittenUnits [] []
  /-- A character that stands for itself. -/
  | plain {c us text} : 0x20 ≤ c.toNat → c ≠ '"' → c ≠ '\\' → WrittenUnits us text →
    WrittenUnits (Text.Utf16.units c ++ us) (c :: text)
  | escape {letter c us text} : (letter, c) ∈ escapes → WrittenUnits us text →
    WrittenUnits (Text.Utf16.units c ++ us) ('\\' :: letter :: text)
  /-- A code unit by its number, be it a surrogate or not. -/
  | unit {a b c d i j k l us text} : (a, i) ∈ hexDigits → (b, j) ∈ hexDigits →
    (c, k) ∈ hexDigits → (d, l) ∈ hexDigits → WrittenUnits us text →
    WrittenUnits ((((i * 16 + j) * 16 + k) * 16 + l).toUInt16 :: us)
      ('\\' :: 'u' :: a :: b :: c :: d :: text)

/-- How the name of a member is written, with the colon behind it. -/
inductive WrittenName : List UInt16 → List Char → Prop
  | mk {pre name quoted post} : Blank pre → WrittenUnits name quoted → Blank post →
    WrittenName name (pre ++ '"' :: (quoted ++ '"' :: (post ++ [':'])))

/-! ## Values -/

mutual

/-- How a value is written. -/
inductive Written : Json → List Char → Prop
  | null : Written null ['n', 'u', 'l', 'l']
  | true : Written (bool true) ['t', 'r', 'u', 'e']
  | false : Written (bool false) ['f', 'a', 'l', 's', 'e']
  | number {n text} : n.Written text → Written (number n) text
  | string {us text} : WrittenUnits us text → Written (string us) ('"' :: (text ++ ['"']))
  | emptyArray {w} : Blank w → Written (array []) ('[' :: (w ++ [']']))
  | array {items text} : WrittenItems items text → Written (array items) ('[' :: (text ++ [']']))
  | emptyObject {w} : Blank w → Written (object []) ('{' :: (w ++ ['}']))
  | object {members text} : WrittenMembers members text →
    Written (object members) ('{' :: (text ++ ['}']))

/-- How a value is written with blanks around it. -/
inductive WrittenSpaced : Json → List Char → Prop
  | mk {pre v text post} : Blank pre → Written v text → Blank post →
    WrittenSpaced v (pre ++ text ++ post)

/-- How the items of an array are written between the brackets, where there are any. -/
inductive WrittenItems : List Json → List Char → Prop
  | last {item text} : WrittenSpaced item text → WrittenItems [item] text
  | more {item text items rest} : WrittenSpaced item text → WrittenItems items rest →
    WrittenItems (item :: items) (text ++ ',' :: rest)

/-- How the members of an object are written between the braces, where there are any. -/
inductive WrittenMembers : List (List UInt16 × Json) → List Char → Prop
  | last {name front item text} : WrittenName name front → WrittenSpaced item text →
    WrittenMembers [(name, item)] (front ++ text)
  | more {name front item text members rest} : WrittenName name front → WrittenSpaced item text →
    WrittenMembers members rest →
    WrittenMembers ((name, item) :: members) (front ++ text ++ ',' :: rest)

end

/-- The text is one value, with blanks around it. -/
def Document (v : Json) (text : String) : Prop := WrittenSpaced v text.toList

/-! ## What the rules come to -/

variable {c : Char} {w text : List Char} {v : Json}

/-- What a number begins with is none of the characters that have a meaning of their own. -/
theorem head_of_number (h : c.isDigit = true ∨ c = '-') :
    c ∉ blanks ∧ c ∉ [']', '[', '{', '"', 'n', 't', 'f'] := by
  have hall : (blanks ++ [']', '[', '{', '"', 'n', 't', 'f']).all
      (fun d => !(d.isDigit || d == '-')) = true := rfl
  rw [← not_or, ← List.mem_append]
  intro hmem
  have hc := List.all_eq_true.1 hall c hmem
  rcases h with h | h <;> simp [h] at hc

/-- A value begins with no blank, and with no bracket that would close an array. -/
theorem Written.exists_cons (h : Written v text) :
    ∃ c rest, text = c :: rest ∧ c ∉ blanks ∧ c ≠ ']' := by
  cases h with
  | number h =>
    obtain ⟨c, rest, rfl, hc⟩ := h.exists_cons
    obtain ⟨hblank, hothers⟩ := head_of_number hc
    exact ⟨c, rest, rfl, hblank, List.ne_of_not_mem_cons hothers⟩
  | _ => exact ⟨_, _, rfl, by decide, by decide⟩

theorem blank_nil : Blank [] := by simp [Blank]

theorem WrittenSpaced.blank_append (hw : Blank w) (h : Written v text) :
    WrittenSpaced v (w ++ text) := by
  simpa using WrittenSpaced.mk hw h blank_nil

/-- Blanks behind a value belong to it as much as those in front. -/
theorem WrittenSpaced.append_blank (h : WrittenSpaced v text) (hw : Blank w) :
    WrittenSpaced v (text ++ w) := by
  obtain @⟨pre, _, body, post, hpre, hbody, hpost⟩ := h
  rw [List.append_assoc]
  exact .mk hpre hbody (List.forall_mem_append.2 ⟨hpost, hw⟩)

theorem Written.spaced (h : Written v text) : WrittenSpaced v text := .blank_append blank_nil h

end ByteFlow.Json
