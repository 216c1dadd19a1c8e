import UnitText.Number.BinaryFormat

/-!
# Figures of decimal numbers

How the number `c * 10 ^ e` is laid out in decimal: with a fixed number of places, with an exponent,
or in the general form that chooses between the two. The number is exact, and it is rounded once,
half to even, to the digits that are shown.

## Main definitions

- `scaleRounded` — a natural number times a power of ten, rounded to an integer
- `Figures` — the digits before and after the point, and the exponent
- `Figures.fixed`, `Figures.scientific`, `Figures.general` — the three layouts
- `Figures.chars` — the layout written out
-/

namespace UnitText

/-- The integer nearest to `c * 10 ^ k`. -/
def scaleRounded (c : Nat) (k : Int) : Nat :=
  if 0 ≤ k then c * 10 ^ k.toNat else roundHalfEven c (10 ^ (-k).toNat)

/-- A number laid out in decimal. -/
structure Figures where
  /-- The digits before the point. -/
  whole : List Char
  /-- The digits after the point. -/
  fraction : List Char
  exponent : Option Int := none
deriving DecidableEq

/-- The number of decimal digits of `n`. -/
def digitCount (n : Nat) : Nat := n.repr.length

namespace Figures

/-- The number `n * 10 ^ -places`, laid out with that many places. -/
def ofUnits (places n : Nat) : Figures :=
  let digits := zeroPadded (places + 1) (decimalDigits n)
  { whole := digits.take (digits.length - places)
    fraction := digits.drop (digits.length - places) }

/-- The number `c * 10 ^ e` with a fixed number of places. -/
def fixed (c : Nat) (e : Int) (places : Nat) : Figures :=
  ofUnits places (scaleRounded c (e + places))

/-- The number `c * 10 ^ e` with all its places and no more. -/
def plain (c : Nat) (e : Int) : Figures := fixed c e (-e).toNat

/-- The number `c * 10 ^ e` rounded to `count` significant digits: the digits as one number, and the
power of ten of the first of them. -/
def significant (c : Nat) (e : Int) (count : Nat) : Nat × Int :=
  let top := e + digitCount c - 1
  let n := scaleRounded c (e + count - 1 - top)
  if n = 10 ^ count then (10 ^ (count - 1), top + 1) else (n, top)

/-- The number `c * 10 ^ e` with one digit before the point, `places` after it, and an exponent. The
exponent of zero is `zeroExponent`. -/
def scientific (c : Nat) (e : Int) (places : Nat) (zeroExponent : Int) : Figures :=
  if c = 0 then
    { ofUnits places 0 with exponent := some zeroExponent }
  else
    let (n, top) := significant c e (places + 1)
    { ofUnits places n with exponent := some top }

/-- The figures without the zeros that end the fraction. -/
def trimmed (f : Figures) : Figures :=
  { f with fraction := (f.fraction.reverse.dropWhile (· == '0')).reverse }

/-- The number `c * 10 ^ e` with `precision` significant digits, which is at least one. It has an
exponent if that would be below `-4`, or not below the precision. The zeros that end the fraction
are kept only on demand. -/
def general (c : Nat) (e : Int) (precision : Nat) (keepZeros : Bool) : Figures :=
  let top := if c = 0 then 0 else (significant c e precision).2
  let figures :=
    if -4 ≤ top ∧ top < precision then fixed c e (precision - 1 - top).toNat
    else scientific c e (precision - 1) 0
  if keepZeros then figures else figures.trimmed

/-- An exponent after the mark `e`, with its sign and at least two digits. -/
def exponentChars (x : Int) : List Char :=
  'e' :: (if x < 0 then '-' else '+') :: zeroPadded 2 (decimalDigits x.natAbs)

/-- The figures written out. A point without digits after it is written only on demand. -/
def chars (f : Figures) (keepPoint : Bool) : List Char :=
  f.whole ++ (if f.fraction = [] ∧ ¬keepPoint then [] else '.' :: f.fraction) ++
    (match f.exponent with
      | none => []
      | some x => exponentChars x)

/-- Digits with a comma before each group of three, counted from the last digit. -/
def grouped (digits : List Char) : List Char :=
  (group digits.reverse).reverse
where
  /-- Puts a comma behind each group of three that is not the last. -/
  group : List Char → List Char
    | a :: b :: c :: d :: rest => a :: b :: c :: ',' :: group (d :: rest)
    | digits => digits

end Figures

end UnitText
