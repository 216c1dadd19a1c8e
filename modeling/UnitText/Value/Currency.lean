import UnitText.Number.Decimal
import UnitText.Quote

/-!
# Amounts of money

An amount is written with a symbol before it, a comma before each group of three digits, and a fixed
number of places, to which it is rounded half to even.

## Main definitions

- `Currency`
- `Currency.text`
-/

namespace UnitText

/-- The number of places as decimal numbers are laid out: neither negative nor too large. -/
def Decimal.places (n : Int) : Except Failure Nat :=
  if n < 0 ∨ 2 ^ 63 ≤ n then .error (.value .decimalFormat)
  else if maxExponent < n then .error (.value .decimalPrecision)
  else .ok n.toNat

structure Currency where
  amount : Decimal
  symbol : Chars
  decimals : Int
deriving DecidableEq

namespace Currency

/-- The digits of an amount, which has no sign. -/
def amountText (places : Nat) : Decimal → String
  | .finite _ c e =>
    let figures := Figures.fixed c e places
    String.ofList (({ figures with whole := Figures.grouped figures.whole } : Figures).chars false)
  | d => d.text

def text (c : Currency) : Except Failure Chars := do
  let magnitude ← c.amount.abs
  let places ← Decimal.places c.decimals
  let amount := amountText places magnitude
  let sign := if ← c.amount.isBelowZero then "-" else ""
  return Chars.ofString sign ++ c.symbol ++ Chars.ofString amount

def quoted (c : Currency) : String :=
  "Currency(amount=" ++ c.amount.quoted ++ ", symbol=" ++ c.symbol.quoted ++ ", decimals=" ++
    Integer.text c.decimals ++ ")"

end Currency

end UnitText
