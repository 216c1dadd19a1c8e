import UnitText.Number.BinaryFormat
import UnitText.Number.Figures

/-!
# Double precision

A `Double` is the 64 bits of a floating-point number: sign, exponent and fraction. All arithmetic
on it is done exactly on the number it stands for, and rounded once.

## Main definitions

- `Double.significand`, `Double.exponent` — a finite number is the one times two to the other
- `Double.numerator`, `Double.denominator` — a finite number as a quotient
- `Double.ofRatio?`, `Double.ofRatio` — the nearest number to a quotient
- `Double.ofDecimal` — the nearest number to a decimal one
- `Double.decimalParts` — the exact decimal value of a finite number
-/

namespace UnitText

/-- A floating-point number of double precision, given by its bits. -/
structure Double where
  bits : Nat
  bits_lt : bits < 2 ^ 64
deriving DecidableEq

namespace Double

/-- The number with these bits; bits beyond the 64 are dropped. -/
def ofBits (n : Nat) : Double := ⟨n % 2 ^ 64, Nat.mod_lt _ (by decide)⟩

/-- Whether the sign bit is set. -/
def negative (x : Double) : Bool := 2 ^ 63 ≤ x.bits

/-- The exponent bits. -/
def exponentBits (x : Double) : Nat := x.bits / 2 ^ 52 % 2 ^ 11

/-- The fraction bits. -/
def fractionBits (x : Double) : Nat := x.bits % 2 ^ 52

/-- Whether the number is finite. -/
def isFinite (x : Double) : Bool := x.exponentBits < 2047

/-- Whether it is no number at all. -/
def isNaN (x : Double) : Bool := x.exponentBits == 2047 && x.fractionBits != 0

/-- The significand of a finite number. -/
def significand (x : Double) : Nat :=
  if x.exponentBits = 0 then x.fractionBits else 2 ^ 52 + x.fractionBits

/-- The exponent that goes with the significand. -/
def exponent (x : Double) : Int :=
  if x.exponentBits = 0 then -1074 else (x.exponentBits : Int) - 1075

/-- The numerator of a finite number, without its sign. -/
def numerator (x : Double) : Nat := x.significand * 2 ^ x.exponent.toNat

/-- The denominator of a finite number. -/
def denominator (x : Double) : Nat := 2 ^ (-x.exponent).toNat

/-- The number without its sign. -/
def abs (x : Double) : Double := ofBits (x.bits % 2 ^ 63)

/-- The number with the opposite sign. -/
def neg (x : Double) : Double := ofBits (if x.negative then x.bits - 2 ^ 63 else x.bits + 2 ^ 63)

/-- The number with the magnitude given by its bits, and a sign. -/
def signed (negative : Bool) (magnitude : Nat) : Double :=
  ofBits ((if negative then 2 ^ 63 else 0) + magnitude)

/-- Infinity, with a sign. -/
def infinity (negative : Bool) : Double := signed negative (2047 * 2 ^ 52)

/-- Not a number, with a sign. -/
def nan (negative : Bool) : Double := signed negative (2047 * 2 ^ 52 + 2 ^ 51)

/-- The number with a sign, and a significand and exponent of double precision. -/
def ofParts (negative : Bool) (m : Nat) (q : Int) : Double :=
  signed negative ((q + 1074).toNat * 2 ^ 52 + m)

/-- The number nearest to `num / den`, or `none` if it is out of range. -/
def ofRatio? (negative : Bool) (num den : Nat) : Option Double :=
  (BinaryFormat.double.nearest? num den).map fun (m, q) => ofParts negative m q

/-- The number nearest to `num / den`; out of range it is infinite. -/
def ofRatio (negative : Bool) (num den : Nat) : Double :=
  (ofRatio? negative num den).getD (infinity negative)

/-- The number nearest to an integer, or `none` if it is out of range. -/
def ofInt? (n : Int) : Option Double := ofRatio? (n < 0) n.natAbs 1

/-- The number nearest to `c * 10 ^ e`; out of range it is infinite. Exponents far outside the range
of double precision are decided by the place of the first digit. -/
def ofDecimal (negative : Bool) (c : Nat) (e : Int) : Double :=
  let top := e + digitCount c
  if c = 0 ∨ top < -400 then signed negative 0
  else if 400 < top then infinity negative
  else ofRatio negative (c * 10 ^ e.toNat) (10 ^ (-e).toNat)

/-- The number, where a NaN that signals is made one that does not. -/
def quieted (x : Double) : Double := if x.isNaN then ofBits (x.bits ||| 2 ^ 51) else x

/-- The fraction bits of a NaN after it has been held in a narrower format: those that the format
has room for, or else the last of them. -/
def heldPayload (f : BinaryFormat) (x : Double) : Nat :=
  let unit := 2 ^ (53 - f.precision)
  max unit (x.fractionBits / unit * unit)

/-- The number after it has been held in a narrower format. -/
def narrowed (f : BinaryFormat) (x : Double) : Double :=
  if x.isFinite then
    match f.nearest? x.numerator x.denominator with
    | none => infinity x.negative
    | some (m, q) => ofRatio x.negative (m * 2 ^ q.toNat) (2 ^ (-q).toNat)
  else if x.isNaN then
    signed x.negative (2047 * 2 ^ 52 + x.heldPayload f)
  else
    x

/-- The integer part of a finite number. -/
def truncated (x : Double) : Int :=
  let n := x.numerator / x.denominator
  if x.negative then -n else n

/-- A finite number, without its sign, is the first component times ten to the second. -/
def decimalParts (x : Double) : Nat × Int :=
  if 0 ≤ x.exponent then
    (x.significand * 2 ^ x.exponent.toNat, 0)
  else
    (x.significand * 5 ^ (-x.exponent).toNat, x.exponent)

end Double

end UnitText
