import UnitText.Unicode

/-!
# Runs of digits

The pieces that numerals are made of, split off the beginning of a text.

## Main definitions

- `digitRun` — the digits at the beginning of a text, and what follows them
- `groupRun` — groups of a comma and three digits
- `radixRun` — digits of a base of at most sixteen
- `digitsValue` — the number that digits write
-/

namespace UnitText

/-- The decimal digits at the beginning of a text, and the text behind them. -/
def digitRun : Chars → List Nat × Chars
  | [] => ([], [])
  | c :: cs =>
    match c.digit? with
    | some d =>
      let r := digitRun cs
      (d :: r.1, r.2)
    | none => ([], c :: cs)

/-- The groups at the beginning of a text, each a comma and three decimal digits: the digits of all
of them, and the text behind them. -/
def groupRun : Chars → List Nat × Chars
  | comma :: a :: b :: c :: rest =>
    match a.digit?, b.digit?, c.digit? with
    | some x, some y, some z =>
      if comma = ',' then
        let r := groupRun rest
        (x :: y :: z :: r.1, r.2)
      else
        ([], comma :: a :: b :: c :: rest)
    | _, _, _ => ([], comma :: a :: b :: c :: rest)
  | cs => ([], cs)

/-- The value of an ASCII digit of a base of at most sixteen. -/
def radixDigit? (base : Nat) (c : CodePoint) : Option Nat :=
  let value? :=
    if 0x30 ≤ c.val ∧ c.val < 0x3A then some (c.val - 0x30)
    else if 0x41 ≤ c.val ∧ c.val < 0x47 then some (c.val - 0x41 + 10)
    else if 0x61 ≤ c.val ∧ c.val < 0x67 then some (c.val - 0x61 + 10)
    else none
  value?.filter (· < base)

/-- The digits of a base at the beginning of a text, and the text behind them. -/
def radixRun (base : Nat) : Chars → List Nat × Chars
  | [] => ([], [])
  | c :: cs =>
    match radixDigit? base c with
    | some d =>
      let r := radixRun base cs
      (d :: r.1, r.2)
    | none => ([], c :: cs)

/-- The number that digits of a base write, most significant first. -/
def digitsValue (base : Nat) (digits : List Nat) : Nat :=
  digits.foldl (fun n d => n * base + d) 0

end UnitText
