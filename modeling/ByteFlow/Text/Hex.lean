/-!
# Hexadecimal numerals

Lower-case hexadecimal, padded with zeros to a least width.

## Main definitions

* `hex width n` — the numeral of `n` with at least `width` digits.
-/

namespace ByteFlow.Text

/-- The hexadecimal numeral of `n`, in lower case and with at least `width`
digits.  A number that needs more digits is written in full. -/
def hex (width n : Nat) : String :=
  String.ofList ((Nat.toDigits 16 n).leftpad width '0')

end ByteFlow.Text
