import UnitText.CodePoint

/-!
# Digits

Natural numbers written in a base. All digits are ASCII: `0` to `9`, then `a` to `f`.

Powers with a natural exponent are those of natural numbers and integers, which compute. They stay
so in a module that knows powers in other structures, and all modules mean the same number by
`2 ^ n`.

## Main definitions

- `decimalDigits` — the decimal digits of a number
- `radixDigits` — the digits in a base of at most sixteen
- `Integer.text?` — an integer in decimal, as long as it has at most `Integer.digitLimit` digits
-/

namespace UnitText

@[default_instance 20000]
instance (priority := high) computedPow {α : Type} [NatPow α] : Pow α Nat := instPowNat

/-- The decimal digits of a number, most significant first. -/
def decimalDigits (n : Nat) : List Char := n.repr.toList

/-- The digits of a number in a base of at most sixteen, most significant first. -/
def radixDigits (base n : Nat) : List Char := Nat.toDigits base n

/-- The digits with zeros put before them until there are `width`. -/
def zeroPadded (width : Nat) (digits : List Char) : List Char := digits.leftpad width '0'

/-- The number in lower-case hexadecimal, with at least `width` digits. -/
def hexText (width n : Nat) : String := String.ofList (zeroPadded width (radixDigits 16 n))

/-- The number in decimal, with at least `width` digits. -/
def paddedText (width n : Nat) : String := String.ofList (zeroPadded width (decimalDigits n))

@[simp] theorem decimalDigits_eq (n : Nat) : decimalDigits n = Nat.toDigits 10 n := by
  simp [decimalDigits]

namespace Integer

/-- Integers of more digits are neither written nor read in decimal. -/
def digitLimit : Nat := 4300

/-- The integer in decimal. -/
def text (n : Int) : String := if n < 0 then "-" ++ n.natAbs.repr else n.natAbs.repr

/-- The integer in decimal, or `none` if it has more digits than the limit. -/
def text? (n : Int) : Option String :=
  if n.natAbs < 10 ^ digitLimit then some (text n) else none

end Integer

end UnitText
