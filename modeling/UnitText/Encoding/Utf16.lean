import UnitText.CodePoint

/-!
# UTF-16 that loses nothing

Two surrogates in the right order form a pair and are read as one character. A surrogate outside a
pair is read as itself, so every sequence of units can be read and written again.

## Main definitions

- `Utf16.decode` — the characters of a sequence of units
- `Utf16.unitsOf` — the units of one character
-/

namespace UnitText

namespace Utf16

def IsHigh (u : Nat) : Prop := 0xD800 ≤ u ∧ u < 0xDC00

instance (u : Nat) : Decidable (IsHigh u) := inferInstanceAs (Decidable (0xD800 ≤ u ∧ u < 0xDC00))

def IsLow (u : Nat) : Prop := 0xDC00 ≤ u ∧ u < 0xE000

instance (u : Nat) : Decidable (IsLow u) := inferInstanceAs (Decidable (0xDC00 ≤ u ∧ u < 0xE000))

def ofPair (high low : Nat) : CodePoint :=
  CodePoint.ofNat (0x10000 + (high - 0xD800) * 0x400 + (low - 0xDC00))

def decode : List Nat → Chars
  | [] => []
  | [u] => [CodePoint.ofNat u]
  | u :: v :: rest =>
    if IsHigh u ∧ IsLow v then
      ofPair u v :: decode rest
    else
      CodePoint.ofNat u :: decode (v :: rest)

/-- The units of a character: one, or a pair. -/
def unitsOf (c : CodePoint) : List Nat :=
  if c.val < 0x10000 then
    [c.val]
  else
    [0xD800 + (c.val - 0x10000) / 0x400, 0xDC00 + (c.val - 0x10000) % 0x400]

def units (cs : Chars) : List Nat := cs.flatMap unitsOf

@[simp] theorem units_nil : units [] = [] := rfl

@[simp] theorem units_cons (c : CodePoint) (cs : Chars) : units (c :: cs) = unitsOf c ++ units cs :=
  rfl

@[simp] theorem units_append (cs ds : Chars) : units (cs ++ ds) = units cs ++ units ds := by
  simp [units]

end Utf16

end UnitText
