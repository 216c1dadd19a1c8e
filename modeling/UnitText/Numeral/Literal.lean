import UnitText.Numeral.Digits
import UnitText.Numeral.Styles

/-!
# Number literals

A literal is a number without its sign: decimal digits, which may be grouped and may have a point
and an exponent, or the digits of another base after a mark such as `0x`. Which of these forms are
literals depends on the styles.

## Main definitions

- `DecimalLiteral`, `Literal` — literals as they are read
- `Literal.scan?` — the literal at the beginning of a text, and what follows it
-/

namespace UnitText

/-- A decimal literal, without its sign. -/
structure DecimalLiteral where
  /-- The digits before the point. -/
  whole : List Nat
  /-- The digits after the point. -/
  fraction : List Nat
  /-- The exponent; zero if there is none. -/
  exponent : Int
deriving DecidableEq

namespace DecimalLiteral

/-- All digits as one number. -/
def coefficient (l : DecimalLiteral) : Nat := digitsValue 10 (l.whole ++ l.fraction)

/-- The power of ten of the last digit. -/
def power (l : DecimalLiteral) : Int := l.exponent - l.fraction.length

/-- The digits before the point, grouped if the styles allow it: at most three digits may come
before a group. -/
def scanWhole (s : Styles) (cs : Chars) : List Nat × Chars :=
  let (digits, rest) := digitRun cs
  if s.thousands ∧ digits ≠ [] ∧ digits.length ≤ 3 then
    let groups := groupRun rest
    (digits ++ groups.1, groups.2)
  else
    (digits, rest)

/-- The digits before and after the point, of which there is at least one. -/
def scanMantissa? (s : Styles) (cs : Chars) : Option (List Nat × List Nat × Chars) :=
  match scanWhole s cs with
  | ([], _) =>
    match cs with
    | point :: rest =>
      if s.decimalPoint ∧ point = '.' ∧ (digitRun rest).1 ≠ [] then
        some ([], digitRun rest)
      else
        none
    | [] => none
  | (whole, point :: rest) =>
    if s.decimalPoint ∧ point = '.' then some (whole, digitRun rest)
    else some (whole, [], point :: rest)
  | (whole, []) => some (whole, [], [])

/-- A sign, if there is one: whether it is a minus, and the text behind it. -/
def scanSign : Chars → Bool × Chars
  | c :: cs => if c = '-' then (true, cs) else if c = '+' then (false, cs) else (false, c :: cs)
  | [] => (false, [])

/-- The exponent at the beginning of a text, if there is a complete one, and the text behind it. -/
def scanExponent (s : Styles) (cs : Chars) : Int × Chars :=
  match cs with
  | mark :: rest =>
    let (negative, digitsAt) := scanSign rest
    let (digits, behind) := digitRun digitsAt
    if s.exponent ∧ (mark = 'e' ∨ mark = 'E') ∧ digits ≠ [] then
      let n := digitsValue 10 digits
      (if negative then -n else n, behind)
    else
      (0, cs)
  | [] => (0, [])

/-- The decimal literal at the beginning of a text, and the text behind it. -/
def scan? (s : Styles) (cs : Chars) : Option (DecimalLiteral × Chars) :=
  (scanMantissa? s cs).map fun (whole, fraction, rest) =>
    let (exponent, rest) := scanExponent s rest
    ({ whole, fraction, exponent }, rest)

end DecimalLiteral

/-- A literal, without its sign. -/
inductive Literal where
  /-- A number in a base that is not ten. -/
  | radix (value : Nat)
  | decimal (l : DecimalLiteral)
deriving DecidableEq

namespace Literal

/-- The base that a mark announces, if the styles allow it. -/
def radixOf? (s : Styles) (mark : CodePoint) : Option Nat :=
  if (mark = 'x' ∨ mark = 'X') ∧ s.hexLiteral then some 16
  else if (mark = 'b' ∨ mark = 'B') ∧ s.binaryLiteral then some 2
  else if (mark = 'o' ∨ mark = 'O') ∧ s.octalLiteral then some 8
  else none

/-- The number after a mark of its base at the beginning of a text, and the text behind it. -/
def scanRadix? (s : Styles) (cs : Chars) : Option (Nat × Chars) :=
  match cs with
  | zero :: mark :: rest =>
    match radixOf? s mark with
    | some base =>
      let (digits, behind) := radixRun base rest
      if zero = '0' ∧ digits ≠ [] then some (digitsValue base digits, behind) else none
    | none => none
  | _ => none

/-- The literal at the beginning of a text, and the text behind it. A number with a mark of its base
is never read as the digit zero. -/
def scan? (s : Styles) (cs : Chars) : Option (Literal × Chars) :=
  match scanRadix? s cs with
  | some (n, rest) => some (.radix n, rest)
  | none => (DecimalLiteral.scan? s cs).map fun (l, rest) => (.decimal l, rest)

end Literal

end UnitText
