import UnitText.Number.Double

/-!
# Hexadecimal figures

A floating-point number in hexadecimal: one digit before the point, digits after it, and the
exponent of a power of two. Thirteen digits after the point show every number exactly; to fewer
digits it is rounded, half to even.

## Main definitions

- `hexFigures` — the figures of a finite number
-/

namespace UnitText

/-- The number of hexadecimal digits in a fraction. -/
def hexPlaces : Nat := 13

namespace Double

/-- The digit before the point. -/
def hexLead (x : Double) : Nat := if x.exponentBits = 0 then 0 else 1

/-- The exponent that goes with one digit before the point. -/
def hexExponent (x : Double) : Int := if x.significand = 0 then 0 else x.exponent + 52

/-- The digits before and after the point, with a number of places if one is given. -/
def hexDigits (x : Double) : Option Nat → List Char × List Char
  | none =>
    let places := zeroPadded hexPlaces (radixDigits 16 x.fractionBits)
    (radixDigits 16 x.hexLead, (places.reverse.dropWhile (· == '0')).reverse)
  | some p =>
    if p < hexPlaces then
      let kept := roundHalfEven x.significand (16 ^ (hexPlaces - p))
      let fraction := if p = 0 then [] else zeroPadded p (radixDigits 16 (kept % 16 ^ p))
      (radixDigits 16 (kept / 16 ^ p), fraction)
    else
      let places := zeroPadded hexPlaces (radixDigits 16 x.fractionBits)
      (radixDigits 16 x.hexLead, places ++ List.replicate (p - hexPlaces) '0')

/-- A finite number without its sign, in hexadecimal. A point with no digits after it is written
only on demand. -/
def hexFigures (x : Double) (places : Option Nat) (keepPoint : Bool) : List Char :=
  let (whole, fraction) := x.hexDigits places
  whole ++ (if fraction = [] ∧ ¬keepPoint then [] else '.' :: fraction) ++
    'p' :: (if x.hexExponent < 0 then '-' else '+') :: decimalDigits x.hexExponent.natAbs

end Double

end UnitText
