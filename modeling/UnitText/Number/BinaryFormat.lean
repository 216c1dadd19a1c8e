import UnitText.Number.Digits

/-!
# Binary floating-point formats

A format holds the numbers `m * 2 ^ q` whose significand `m` has a limited number of bits and whose
exponent `q` is not too small. A quotient is rounded to the nearest of them, ties to even.

## Main definitions

- `roundHalfEven` — a quotient of natural numbers, rounded to an integer
- `BinaryFormat` — a format
- `BinaryFormat.nearest?` — the number of a format nearest to a quotient
-/

namespace UnitText

/-- The integer nearest to `num / den`; of two that are equally near, the even one. -/
def roundHalfEven (num den : Nat) : Nat :=
  let q := num / den
  let r := num % den
  if 2 * r < den then q
  else if den < 2 * r then q + 1
  else if q % 2 = 0 then q
  else q + 1

structure BinaryFormat where
  precision : Nat
  minExponent : Int
  /-- Numbers that round to this power of two, or beyond it, are out of range. -/
  limit : Nat
deriving DecidableEq

namespace BinaryFormat

/-- Half precision: 16 bits. -/
def half : BinaryFormat := ⟨11, -24, 16⟩

/-- Single precision: 32 bits. -/
def single : BinaryFormat := ⟨24, -149, 128⟩

/-- Double precision: 64 bits. -/
def double : BinaryFormat := ⟨53, -1074, 1024⟩

/-- The exponent of the greatest power of two that is at most `num / den`, where neither is zero. -/
def floorLog (num den : Nat) : Int :=
  let k : Int := (num.log2 : Int) - den.log2
  if num * 2 ^ (-k).toNat < den * 2 ^ k.toNat then k - 1 else k

/-- The integer nearest to `num / den / 2 ^ q`. -/
def scaled (num den : Nat) (q : Int) : Nat :=
  roundHalfEven (num * 2 ^ (-q).toNat) (den * 2 ^ q.toNat)

/-- Significand and exponent of the number nearest to `num / den`, or `none` if it is out of
range. Each number has one significand and one exponent: a significand that rounding carries into
one more bit is halved. -/
def nearest? (f : BinaryFormat) (num den : Nat) : Option (Nat × Int) :=
  if num = 0 then
    some (0, f.minExponent)
  else
    let q := max (floorLog num den + 1 - f.precision) f.minExponent
    let m := scaled num den q
    let (m, q) := if m = 2 ^ f.precision then (2 ^ (f.precision - 1), q + 1) else (m, q)
    if 2 ^ f.limit * 2 ^ (-q).toNat ≤ m * 2 ^ q.toNat then none else some (m, q)

end BinaryFormat

end UnitText
