import UnitText.Argument.Text
import UnitText.Format.Field
import UnitText.Value.Layout

/-!
# Integer conversions

An integer is stored in as many bits as the length modifier says, and what is stored is written in
the base of the conversion. A precision is the least number of digits. The alternate form marks the
base. Truth values are words in the decimal conversions, and otherwise the numbers one and zero.

## Main definitions

- `Field.integer`
-/

namespace UnitText

def IntegerForm.isDecimal : IntegerForm → Bool
  | signedD | signedI | unsigned => true
  | _ => false

/-- The letter that lays out integers in the base of a conversion. -/
def Kind.layoutLetter (k : Kind) : Char :=
  if k.radix = 2 then 'b' else if k.radix = 10 then 'd' else k.letter

/-- The digits of a magnitude in the base of a conversion. -/
def Kind.digits (k : Kind) (n : Nat) : List Char :=
  if k = .integer (.hex true) then hexDigits 'X' n else radixDigits k.radix n

namespace Field

/-- The integer that is stored when a conversion reads `n`. -/
def stored (s : Specifier) (n : Int) : Int := Integer.wrap s.length.bits s.kind.isSigned n

/-- The digits of a magnitude, with zeros before them until there are as many as the precision says.
Zero has no digits if the precision is zero. -/
def precise (f : Field) (isZero : Bool) (digits : List Char) : Except Failure (List Char) :=
  match f.precision with
  | none => .ok digits
  | some p =>
    if runLimit ≤ p then .error (.range .digits)
    else .ok (zeroPadded p (if p = 0 ∧ isZero then [] else digits))

/-- The mark of the base in the alternate form of a number. -/
def baseMark (f : Field) (isZero : Bool) : List Char :=
  if f.flags.alternate ∧ (f.spec.kind.radix = 2 ∨ f.spec.kind.radix = 16) ∧ ¬isZero then
    ['0', f.spec.kind.letter]
  else
    []

/-- Octal digits begin with a zero in the alternate form. -/
def octalMarked (f : Field) (digits : List Char) : List Char :=
  if f.flags.alternate ∧ f.spec.kind.radix = 8 ∧ digits.head? ≠ some '0' then '0' :: digits
  else digits

def points (cs : List Char) : Chars := cs.map CodePoint.ofChar

/-- A number with the digits of its magnitude, in the notation of the field. -/
def signedDigits (f : Field) (negative isZero : Bool) (digits : List Char) :
    Except Failure Chars := do
  let digits ← f.precise isZero digits
  let sign := f.signChars negative f.spec.kind.isSigned
  f.padNumber (sign ++ points (f.baseMark isZero)) (points (f.octalMarked digits))
    (f.flags.zero && f.precision.isNone)

/-- An integer that was stored, in the notation of the field. -/
def storedInteger (f : Field) (n : Int) : Except Failure Chars :=
  f.signedDigits (n < 0) (n = 0) (f.spec.kind.digits n.natAbs)

/-- A truth value as a word, cut off at the precision. -/
def booleanWord (f : Field) (b : Bool) : Except Failure Chars :=
  let word := Chars.ofString (booleanText b)
  f.padText (match f.precision with
    | none => word
    | some p => word.take p)

/-- A value that was handed in as a truth value. Truth values are words in the decimal conversions;
any other value is laid out without its sign, as it is and not as it would be stored. -/
def truth (f : Field) (form : IntegerForm) (v : Value) : Except Failure Chars := do
  match v with
  | .boolean b false =>
    if form.isDecimal then f.booleanWord b else f.storedInteger (if b then 1 else 0)
  | v =>
    let magnitude ← v.magnitude
    let digits ← magnitude.layout f.spec.kind.layoutLetter
    f.signedDigits (v.integer?.any (· < 0)) (← magnitude.isZero) digits.toList

def integer (f : Field) (form : IntegerForm) (a : Argument) : Except Failure Chars := do
  a.check f.spec
  if a.family = .boolean then
    f.truth form a.value
  else
    f.storedInteger (stored f.spec (← a.value.toInteger))

end Field

end UnitText
