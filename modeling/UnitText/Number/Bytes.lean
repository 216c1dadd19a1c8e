import UnitText.Number.Double

/-!
# Bytes of numbers

The bytes that a machine holds of a number, the least significant first.

## Main definitions

- `littleEndian` — the bytes of a natural number
- `Double.singleBits`, `Double.extendedBits` — a floating-point number in 32 and in 80 bits
-/

namespace UnitText

/-- The lowest bytes of a number, the least significant first. -/
def littleEndian (count n : Nat) : List Nat :=
  (List.range count).map fun i => n / 256 ^ i % 256

namespace Double

/-- The bits of a number that single precision holds. -/
def singleBits (x : Double) : Nat :=
  let magnitude : Nat :=
    if x.isFinite then
      match BinaryFormat.single.nearest? x.numerator x.denominator with
      | some (m, q) => (q + 149).toNat * 2 ^ 23 + m
      | none => 255 * 2 ^ 23
    else
      255 * 2 ^ 23 + x.fractionBits / 2 ^ 29
  (if x.negative then 2 ^ 31 else 0) + magnitude

/-- The bits of a number in extended precision, whose significand shows its highest bit. -/
def extendedBits (x : Double) : Nat :=
  let magnitude : Nat :=
    if x.isFinite then
      if x.significand = 0 then 0
      else
        let top := x.significand.log2
        (x.exponent + top + 16383).toNat * 2 ^ 64 + x.significand * 2 ^ (63 - top)
    else
      32767 * 2 ^ 64 + 2 ^ 63 + x.fractionBits * 2 ^ 11
  (if x.negative then 2 ^ 79 else 0) + magnitude

end Double

end UnitText
