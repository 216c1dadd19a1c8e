import UnitText.Format.Integer
import UnitText.Number.HexFigures

/-!
# Floating-point conversions

Numbers are rounded once, half to even, from their exact value to the digits that are shown. Decimal
numbers are written without a detour through binary; only in the hexadecimal form, and when they are
not finite, they are read as floating-point numbers first.

## Main definitions

- `Field.float`
-/

namespace UnitText

/-- The number of places, or of significant digits, of a conversion that gives no precision. -/
def defaultPrecision : Nat := 6

namespace Field

/-- Upper-case conversions write all letters as capitals. -/
def cased (f : Field) (cs : List Char) : Chars :=
  points (if f.spec.kind.isUpper then cs.map Char.toUpper else cs)

/-- Zeros fill the field if the flag is set. -/
def padFinite (f : Field) (negative : Bool) (mark digits : List Char) : Except Failure Chars :=
  f.padNumber (f.signChars negative true ++ f.cased mark) (f.cased digits) f.flags.zero

/-- Numbers that are not finite are words, which are never filled with zeros. -/
def nonFinite (f : Field) (x : Double) : Except Failure Chars :=
  f.padNumber (f.signChars x.negative true)
    (f.cased (if x.isNaN then ['n', 'a', 'n'] else ['i', 'n', 'f'])) false

/-- The precision of a floating-point conversion, which has to be within bounds. -/
def floatPrecision (f : Field) : Except Failure Nat :=
  let p := f.precision.getD defaultPrecision
  if 2 ^ 63 ≤ p then .error (.value .floatFormat)
  else if 2 ^ 31 ≤ p then .error (.value .floatPrecision)
  else .ok p

/-- The figures of `c * 10 ^ e` in one of the decimal forms. The exponent of zero is that of the
last digit shown, counted from `zeroExponent`. -/
def figures (form : FloatForm) (c : Nat) (e : Int) (p : Nat) (zeroExponent : Int)
    (alternate : Bool) : Figures :=
  match form with
  | .exponent => Figures.scientific c e p zeroExponent
  | .general => Figures.general c e (max p 1) alternate
  | _ => Figures.fixed c e p

/-- The size of a finite floating-point number in one of the decimal forms, behind the sign of the
number. A size that is negative all the same has a minus of its own, as one of its digits. -/
def finiteDouble (f : Field) (form : FloatForm) (negative : Bool) (size : Double) :
    Except Failure Chars := do
  let p ← f.floatPrecision
  let (c, e) := size.decimalParts
  let figures := figures form c e p 0 f.flags.alternate
  let own := if size.negative then ['-'] else []
  f.padFinite negative [] (own ++ figures.chars f.flags.alternate)

def hexDouble (f : Field) (x : Double) : Except Failure Chars :=
  if f.precision.any (runLimit ≤ ·) then
    .error (.range .digits)
  else
    f.padFinite x.negative ['0', 'x'] (x.hexFigures f.precision f.flags.alternate)

def double (f : Field) (form : FloatForm) (x : Double) : Except Failure Chars :=
  if !x.isFinite then f.nonFinite x
  else match form with
    | .hex => f.hexDouble x
    | form => f.finiteDouble form x.negative x.abs

/-- A finite decimal number, after its sign was taken off, in one of the decimal forms. -/
def finiteDecimal (f : Field) (form : FloatForm) (negative : Bool) (c : Nat) (e : Int) :
    Except Failure Chars := do
  let p := f.precision.getD defaultPrecision
  let _ ← Decimal.places (if form = .general then (max p 1 : Nat) - 1 else p)
  let figures := figures form c e p (e + p) f.flags.alternate
  f.padFinite negative [] (figures.chars f.flags.alternate)

def decimal (f : Field) (form : FloatForm) (d : Decimal) : Except Failure Chars := do
  match form, d with
  | .hex, d => f.double .hex (← d.toDouble)
  | form, .finite negative _ _ =>
    match ← d.abs with
    | .finite _ c e => f.finiteDecimal form negative c e
    | d => f.double form (← d.toDouble)
  | form, d => f.double form (← d.toDouble)

/-- The floating-point number that a conversion reads. There is none for an integer beyond them. -/
def nearest (s : Specifier) (v : Value) : Except Failure Double :=
  match v.toFloat with
  | .error (.range .float) => do
    throw (.problem (.tooLargeForFloat s (Chars.toString (← v.plainText))))
  | r => r

/-- A value of the domain of fixed-point numbers, which conversions read as the number that it is.
Its size is taken in its own type, and so the lowest of some machine integers stay negative. -/
def fixedPoint (f : Field) (form : FloatForm) (v : Value) : Except Failure Chars := do
  match form, v with
  | .hex, v => f.double .hex (← v.toFloat)
  | form, .decimal d => f.decimal form d
  | form, v => do
    let x ← v.toReal
    if x.isFinite then f.finiteDouble form x.negative (← (← v.magnitude).toReal)
    else f.nonFinite x

def float (f : Field) (form : FloatForm) (a : Argument) : Except Failure Chars := do
  a.check f.spec
  if a.domain = some .fixedPoint then
    f.fixedPoint form a.value
  else
    f.double form (← nearest f.spec a.value)

end Field

end UnitText
