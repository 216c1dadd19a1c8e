import UnitText.Number.Decimal
import UnitText.Numeral.Literal
import UnitText.Text.Coding
import UnitText.Unicode

/-!
# Numbers in text

A numeral is a literal with a sign, and white space around it. It is read as an integer, a
floating-point number or a decimal number.

## Main definitions

- `Numeral` — a literal with its sign
- `Numeral.read` — the numeral that a text is, or the offset at which it stops being one
- `parseInteger`, `parseFloat`, `parseDecimal` — the number that a text is
-/

namespace UnitText

/-- A literal with its sign. -/
structure Numeral where
  negative : Bool
  literal : Literal
deriving DecidableEq

namespace Numeral

/-- The text without the white space it begins with, if that is allowed. -/
def skipWhite (allowed : Bool) (cs : Chars) : Chars :=
  if allowed then cs.dropWhile CodePoint.isWhiteSpace else cs

/-- The sign at the beginning of a text, if a sign is allowed, and the text behind it. -/
def readSign (allowed : Bool) (cs : Chars) : Bool × Chars :=
  if allowed then DecimalLiteral.scanSign cs else (false, cs)

/-- The numeral that a text is. If it is none, the offset is that of the literal that is missing, or
of the first character behind the numeral. -/
def read (s : Styles) (cs : Chars) : Except Nat Numeral :=
  let (negative, literalAt) := readSign s.leadingSign (skipWhite s.leadingWhite cs)
  match Literal.scan? s literalAt with
  | none => .error (cs.length - literalAt.length)
  | some (literal, rest) =>
    match skipWhite s.trailingWhite rest with
    | [] => .ok { negative, literal }
    | behind => .error (cs.length - behind.length)

/-- The integer with a magnitude and the sign of the numeral. -/
def signed (n : Numeral) (magnitude : Nat) : Int :=
  if n.negative then -(magnitude : Int) else magnitude

/-- The integer that a numeral writes. A decimal literal is first of all a decimal number, whose
exponent must be in range. `text` is the text that was read. -/
def toInteger (text : Chars) (n : Numeral) : Except Failure Int :=
  match n.literal with
  | .radix value => .ok (n.signed value)
  | .decimal l => do
    let _ ← Decimal.exact false l.coefficient l.power
    if Decimal.IsIntegral l.coefficient l.power then
      return n.signed (Decimal.integral l.coefficient l.power)
    else
      throw (.problem (.notInteger text))

/-- The floating-point number nearest to what a numeral writes. A decimal literal beyond the range
is infinite; a literal of another base is not read beyond it. -/
def toFloat (n : Numeral) : Except Failure Double :=
  match n.literal with
  | .radix value =>
    match Double.ofRatio? n.negative value 1 with
    | some x => .ok x
    | none => .error (.range .float)
  | .decimal l => .ok (Double.ofDecimal n.negative l.coefficient l.power)

/-- The decimal number that a numeral writes. A minus sign is arithmetic, and rounds. -/
def toDecimal (n : Numeral) : Except Failure Decimal := do
  let d ← match n.literal with
    | .radix value => Decimal.exact false value 0
    | .decimal l => Decimal.exact false l.coefficient l.power
  if n.negative then d.neg else return d

/-- The numeral that some characters are. -/
def ofChars (s : Styles) (cs : Chars) : Except Failure Numeral :=
  match read s cs with
  | .ok n => .ok n
  | .error offset => .error (.problem (.notNumber cs offset))

end Numeral

/-- The integer that a text is. -/
def parseInteger (s : Styles) (t : Text) : Except Failure Int := do
  let cs ← t.decode
  (← Numeral.ofChars s cs).toInteger cs

/-- The floating-point number that a text is. -/
def parseFloat (s : Styles) (t : Text) : Except Failure Double := do
  let cs ← t.decode
  (← Numeral.ofChars s cs).toFloat

/-- The decimal number that a text is. -/
def parseDecimal (s : Styles) (t : Text) : Except Failure Decimal := do
  let cs ← t.decode
  (← Numeral.ofChars s cs).toDecimal

end UnitText
