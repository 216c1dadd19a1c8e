import UnitText.Number.Double

/-!
# The fewest digits that read back

A floating-point number is written with the fewest decimal digits that still identify it. Among
decimals of that many digits that read back, the one nearest to the number is taken, and of two
that are equally near the even one.

## Main definitions

- `Double.fewestDigits?` — the search for them, whatever it is to read back
- `Double.shortest`, `Double.shortestIn` — the digits, as an integer and a power of ten
- `Double.text`, `Double.textIn` — the number written with them
-/

namespace UnitText

/-- The number of decimal digits that a format keeps of every number, by the logarithm of two. -/
def BinaryFormat.decimalPrecision (f : BinaryFormat) : Nat := (f.precision - 1) * 30103 / 100000

namespace Double

/-- The least `k` with `num / den < 10 ^ k`, where neither is zero. -/
def decimalScale (num den : Nat) : Int :=
  if den ≤ num then digitCount (num / den) else 1 - digitCount ((den - 1) / num)

/-- Of the two multiples of `10 ^ e` around `num / den`, the one that reads back. If both do, the
nearer one is taken, and the even one if they are equally near. -/
def readingBack? (reads : Nat → Int → Bool) (num den : Nat) (e : Int) : Option (Nat × Int) :=
  let num := num * 10 ^ (-e).toNat
  let den := den * 10 ^ e.toNat
  let low := num / den
  match reads low e, reads (low + 1) e with
  | true, true => some (roundHalfEven num den, e)
  | true, false => some (low, e)
  | false, true => some (low + 1, e)
  | false, false => none

/-- The decimal of the fewest digits, at most seventeen, that is next to `num / den` and reads
back: an integer and the power of ten it is to be multiplied with. -/
def fewestDigits? (reads : Nat → Int → Bool) (num den : Nat) : Option (Nat × Int) :=
  let k := decimalScale num den
  (List.range 17).findSome? fun n => readingBack? reads num den (k - (n + 1 : Nat))

/-- The fewest digits that identify a finite number other than zero, without its sign. Seventeen
are always enough; were they not, all digits of the number would be given. -/
def shortest (x : Double) : Nat × Int :=
  let reads (c : Nat) (e : Int) : Bool := ofDecimal x.negative c e == x
  (fewestDigits? reads x.numerator x.denominator).getD x.decimalParts

/-- The fewest digits that identify a finite number other than zero among those of a narrower
format, without its sign. -/
def shortestIn (f : BinaryFormat) (x : Double) : Nat × Int :=
  let held := f.nearest? x.numerator x.denominator
  let reads (c : Nat) (e : Int) : Bool :=
    f.nearest? (c * 10 ^ e.toNat) (10 ^ (-e).toNat) == held
  (fewestDigits? reads x.numerator x.denominator).getD x.decimalParts

/-- The decimal `c * 10 ^ e` as default texts of numbers show it: if it is written without an
exponent, then with at least one place. -/
def layout (isPlain : Bool) (c : Nat) (e : Int) : List Char :=
  if isPlain then
    let figures := (Figures.plain c e).trimmed
    if figures.fraction = [] then figures.whole ++ ['.', '0'] else figures.chars false
  else
    (Figures.scientific c e (digitCount c - 1) 0).trimmed.chars false

/-- The text of a number whose magnitude, if it is finite and not zero, has the digits given. -/
def textWith (digits : Double → Nat × Int) (isPlain : Nat → Int → Bool) (x : Double) : String :=
  if x.isNaN then
    "nan"
  else
    let magnitude :=
      if !x.isFinite then ['i', 'n', 'f']
      else if x.significand = 0 then ['0', '.', '0']
      else
        let (c, e) := digits x
        layout (isPlain c e) c e
    String.ofList (if x.negative then '-' :: magnitude else magnitude)

/-- A decimal is written without an exponent if that of its first digit is from `-4` to `15`. -/
def isPlain (c : Nat) (e : Int) : Bool :=
  let top := e + digitCount c - 1
  decide (-4 ≤ top ∧ top < 16)

/-- The default text of a number. -/
def text (x : Double) : String := x.textWith shortest isPlain

/-- A number of a narrower format is written without an exponent if it is at least `10 ^ -4`, and
below the power of ten that the format keeps all digits of. -/
def isPlainIn (f : BinaryFormat) (x : Double) : Bool :=
  x.denominator ≤ x.numerator * 10 ^ 4 && x.numerator < 10 ^ f.decimalPrecision * x.denominator

/-- The default text of a number of a narrower format. -/
def textIn (f : BinaryFormat) (x : Double) : String :=
  x.textWith (shortestIn f) fun _ _ => x.isPlainIn f

end Double

end UnitText
