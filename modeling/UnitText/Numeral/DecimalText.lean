import UnitText.Numeral.Word

/-!
# Decimal numbers in text

The text of a decimal number is what `Decimal.text` writes, and more: white space around it,
underscores anywhere, digits of any script, letters in any case.

## Main definitions

- `Decimal.ofChars` — the decimal number that a text is
-/

namespace UnitText

namespace Decimal

/-- The text without the white space around it and without underscores. -/
def stripped (cs : Chars) : Chars :=
  let front := cs.dropWhile CodePoint.isWhiteSpace
  let inner := (front.reverse.dropWhile CodePoint.isWhiteSpace).reverse
  inner.filter (· ≠ '_')

/-- The payload of a NaN: digits to the end of the text. -/
def payload? (cs : Chars) : Option Nat :=
  match digitRun cs with
  | (digits, []) => some (digitsValue 10 digits)
  | _ => none

/-- The value that is no finite number and has this name, with a sign. -/
def special? (negative : Bool) (cs : Chars) : Option Decimal :=
  if cs.isWord "inf" ∨ cs.isWord "infinity" then
    some (infinite negative)
  else if Chars.isWord "nan" (cs.take 3) then
    (payload? (cs.drop 3)).map (nan negative false)
  else if Chars.isWord "snan" (cs.take 4) then
    (payload? (cs.drop 4)).map (nan negative true)
  else
    none

/-- The decimal number that a text is. -/
def ofChars (cs : Chars) : Except Failure Decimal :=
  let (negative, magnitude) := DecimalLiteral.scanSign (stripped cs)
  match special? negative magnitude with
  | some d => .ok d
  | none =>
    match DecimalLiteral.scan? .float magnitude with
    | some (l, []) => exact negative l.coefficient l.power
    | _ => .error (.signal .conversionSyntax)

end Decimal

end UnitText
