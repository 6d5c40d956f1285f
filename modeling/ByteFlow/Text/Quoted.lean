import ByteFlow.Text.Hex
import ByteFlow.Text.Unprintable

/-!
# Quoted text

The form in which trace lines show a piece of text: between double quotes, with
everything that could be misread or not be seen written as an escape.

## Main definitions

* `Quoted.escape c` — how one character is written between the quotes.
* `Quoted.quote s` — the quoted form of `s`.
-/

namespace ByteFlow.Text.Quoted

/-- How one character is written between double quotes.  The quote and the
backslash are escaped because they would end the text or start an escape; a
character without a visible form is written by its code point. -/
def escape (c : Char) : String :=
  match c with
  | '\u0000' => "\\0"
  | '\t' => "\\t"
  | '\n' => "\\n"
  | '\r' => "\\r"
  | '"' => "\\\""
  | '\\' => "\\\\"
  | _ =>
    if Unprintable.mem c then "\\u\x7b" ++ hex 1 c.toNat ++ "\x7d" else c.toString

/-- The text between double quotes, character by character. -/
def quote (s : String) : String :=
  "\"" ++ s.toList.foldl (fun shown c => shown ++ escape c) "" ++ "\""

end ByteFlow.Text.Quoted
