import UnitText.Text.Basic

/-!
# Letter case

Only the ASCII letters have case here. The case of a text is mapped unit by unit, so units of other
characters, and units that encode no character, pass through.

## Main definitions

- `Text.toLower`, `Text.toUpper`
-/

namespace UnitText

/-- The small letter of a capital ASCII letter; any other unit as it is. -/
def lowerUnit (u : Nat) : Nat := if 0x41 ≤ u ∧ u ≤ 0x5A then u + 0x20 else u

/-- The capital of a small ASCII letter; any other unit as it is. -/
def upperUnit (u : Nat) : Nat := if 0x61 ≤ u ∧ u ≤ 0x7A then u - 0x20 else u

theorem lowerUnit_lt {u n : Nat} (hn : 0x100 ≤ n) (hu : u < n) : lowerUnit u < n := by
  simp only [lowerUnit]
  split <;> omega

theorem upperUnit_lt {u n : Nat} (hu : u < n) : upperUnit u < n := by
  simp only [upperUnit]
  split <;> omega

namespace Text

/-- The text with its capital ASCII letters made small. -/
def toLower (t : Text) : Text :=
  t.mapUnits lowerUnit fun _ hu => lowerUnit_lt t.container.le_unitLimit hu

/-- The text with its small ASCII letters made capital. -/
def toUpper (t : Text) : Text :=
  t.mapUnits upperUnit fun _ hu => upperUnit_lt hu

@[simp] theorem container_toLower (t : Text) : t.toLower.container = t.container := rfl

@[simp] theorem container_toUpper (t : Text) : t.toUpper.container = t.container := rfl

@[simp] theorem units_toLower (t : Text) : t.toLower.units = t.units.map lowerUnit := rfl

@[simp] theorem units_toUpper (t : Text) : t.toUpper.units = t.units.map upperUnit := rfl

end Text

end UnitText
