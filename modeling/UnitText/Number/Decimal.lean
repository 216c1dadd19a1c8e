import UnitText.Failure
import UnitText.Number.Double

/-!
# Decimal numbers

A decimal number is a sign, a coefficient and a power of ten. It keeps the zeros it was written
with. Reading and laying out a decimal number are exact; negation and the absolute value are
arithmetic, and round to the digits of `Decimal.precision`.

## Main definitions

- `Decimal` — finite numbers, infinities and NaNs
- `Decimal.text` — the number written so that it can be read again
- `Decimal.exact` — the finite number with given parts, if its exponent is in range
- `Decimal.neg`, `Decimal.abs` — the arithmetic
- `Decimal.toDouble` — the nearest floating-point number
-/

namespace UnitText

inductive Decimal where
  /-- The number `coefficient * 10 ^ exponent`, with a sign. -/
  | finite (negative : Bool) (coefficient : Nat) (exponent : Int)
  | infinite (negative : Bool)
  /-- Not a number. A payload of zero is not shown. -/
  | nan (negative signaling : Bool) (payload : Nat)
deriving DecidableEq

namespace Decimal

/-- Whether the sign is a minus. -/
def negative : Decimal → Bool
  | finite n _ _ => n
  | infinite n => n
  | nan n _ _ => n

/-- The least exponent of the first digit of a number that is written without an exponent. -/
def leastPlainExponent : Int := -6

/-- A coefficient and a power of ten as they are written: without an exponent if there are no digits
to be added on the right, and not too many on the left. -/
def finiteText (c : Nat) (e : Int) : String :=
  let top := e + digitCount c - 1
  if e ≤ 0 ∧ leastPlainExponent ≤ top then
    String.ofList ((Figures.plain c e).chars false)
  else
    String.ofList ((Figures.ofUnits (digitCount c - 1) c).chars false) ++
      (if top < 0 then "E-" else "E+") ++ top.natAbs.repr

/-- The number as it is written. -/
def text (d : Decimal) : String :=
  (if d.negative then "-" else "") ++
    match d with
    | finite _ c e => finiteText c e
    | infinite _ => "Infinity"
    | nan _ signaling payload =>
      (if signaling then "sNaN" else "NaN") ++ (if payload = 0 then "" else payload.repr)

/-- The number as messages show it. -/
def quoted (d : Decimal) : String := "Decimal('" ++ d.text ++ "')"

/-- The greatest exponent of the first digit of a number. -/
def maxExponent : Int := 999999999999999999

/-- The least exponent of the last digit of a number. -/
def minExponent : Int := -1999999999999999997

/-- The finite number with these parts. Numbers whose exponent is out of range are refused. -/
def exact (negative : Bool) (c : Nat) (e : Int) : Except Failure Decimal :=
  if maxExponent < e + digitCount c - 1 ∨ e < minExponent then
    .error (.signal .invalidOperation)
  else
    .ok (finite negative c e)

/-- The number of digits that arithmetic keeps. -/
def precision : Nat := 28

/-- The greatest exponent of the first digit of a result of arithmetic. -/
def maxResultExponent : Int := 999999

/-- The least exponent of the last digit of a result of arithmetic. -/
def minResultExponent : Int := -1000026

/-- The result `c * 10 ^ e` of arithmetic: rounded half to even if it has too many digits or too
small an exponent. An exponent that is too large is an overflow, except that of zero. -/
def rounded (negative : Bool) (c : Nat) (e : Int) : Except Failure Decimal :=
  if c = 0 then
    .ok (finite negative 0 (max minResultExponent (min e maxResultExponent)))
  else
    let least := max (e + digitCount c - precision) minResultExponent
    let (c, e) := if e < least then (scaleRounded c (e - least), least) else (c, e)
    let (c, e) := if c = 10 ^ precision then (10 ^ (precision - 1), e + 1) else (c, e)
    if maxResultExponent < e + digitCount c - 1 then
      .error (.signal .overflow)
    else
      .ok (finite negative c e)

/-- A NaN as the result of arithmetic: one that signals has none. -/
def quiet (d : Decimal) : Except Failure Decimal :=
  match d with
  | nan _ true _ => .error (.signal .invalidOperation)
  | d => .ok d

/-- The number with the opposite sign. Zero gets a plus. -/
def neg : Decimal → Except Failure Decimal
  | finite negative c e => rounded (!negative && c != 0) c e
  | infinite negative => .ok (infinite !negative)
  | d => d.quiet

/-- The number without its sign. -/
def abs : Decimal → Except Failure Decimal
  | finite _ c e => rounded false c e
  | infinite _ => .ok (infinite false)
  | d => d.quiet

/-- Whether the number is below zero. NaNs have no order. -/
def isBelowZero : Decimal → Except Failure Bool
  | finite negative c _ => .ok (negative && c != 0)
  | infinite negative => .ok negative
  | nan _ _ _ => .error (.signal .invalidOperation)

/-- The nearest floating-point number. A NaN that signals has none. -/
def toDouble : Decimal → Except Failure Double
  | finite negative c e => .ok (.ofDecimal negative c e)
  | infinite negative => .ok (.infinity negative)
  | nan negative false _ => .ok (.nan negative)
  | nan _ true _ => .error (.value .signalingNaN)

/-- Whether `c * 10 ^ e` is an integer. -/
def IsIntegral (c : Nat) (e : Int) : Prop :=
  c = 0 ∨ 0 ≤ e ∨ ((-e).toNat < digitCount c ∧ c % 10 ^ (-e).toNat = 0)

instance (c : Nat) (e : Int) : Decidable (IsIntegral c e) :=
  inferInstanceAs (Decidable (c = 0 ∨ 0 ≤ e ∨ ((-e).toNat < digitCount c ∧ _)))

/-- The natural number `c * 10 ^ e`, for one that is integral. -/
def integral (c : Nat) (e : Int) : Nat :=
  if c = 0 then 0 else c * 10 ^ e.toNat / 10 ^ (-e).toNat

/-- The number without an exponent, with all its places and no more. -/
def fixedText : Decimal → String
  | finite negative c e =>
    (if negative then "-" else "") ++ String.ofList ((Figures.plain c e).chars false)
  | d => d.text

end Decimal

end UnitText
