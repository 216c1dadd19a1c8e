import UnitText.Argument.Basic
import UnitText.Value.Number
import UnitText.Value.Sequence

/-!
# What conversions accept

A conversion accepts the arguments of some families, and those of some domains. Whether their values
can be read accordingly is seen only when it formats them.

## Main definitions

- `Argument.suits` — whether a conversion accepts an argument
- `Argument.check` — refuses an argument that a conversion does not accept
- `Argument.starValue` — an argument as a width or a precision
-/

namespace UnitText

namespace Argument

/-- Whether a conversion accepts the argument. A text for a character has to have the size one. -/
def suits (k : Kind) (a : Argument) : Except Failure Bool :=
  match k, a.family with
  | .integer _, .integer | .integer _, .boolean => .ok true
  | .float _ _, .float | .float _ _, .integer => .ok true
  | .float _ _, _ => .ok (a.domain == some .fixedPoint)
  | .char, .character | .char, .integer => .ok true
  | .char, .text => return (← a.value.size) == 1
  | .string, .text | .string, .character | .string, .other => .ok true
  | .string, _ => .ok (a.domain == some .enumeration)
  | .pointer, .address | .pointer, .integer => .ok true
  | .count, .slot => .ok true
  | _, _ => .ok false

/-- Refuses an argument that the conversion of a specifier does not accept. -/
def check (a : Argument) (s : Specifier) : Except Failure Unit := do
  if !(← a.suits s.kind) then
    throw (.problem (.cannotFormat s a.description (← a.quoted)))

/-- The number for a width or a precision written as a star, which is stored in 32 bits. -/
def starValue (a : Argument) (s : Specifier) (role : StarRole) : Except Failure Int := do
  if a.family = .integer then
    return Integer.wrap 32 true (← a.value.toInteger)
  else
    throw (.problem (.starNotInteger s role a.description (← a.quoted)))

end Argument

end UnitText
