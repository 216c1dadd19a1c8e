import UnitText.Format.Float

/-!
# Texts, characters and addresses

A text conversion writes texts and the values that have a notation of their own; its precision is
the greatest number of code units that it writes. A character conversion also takes the number of a
character. An address is written in hexadecimal.

## Main definitions

- `Field.char`, `Field.string`, `Field.pointer`, `Field.count`, `Field.percent`
- `Field.render` — the output of any conversion
-/

namespace UnitText

namespace Field

/-- The character with a number, which is stored in 32 bits with the modifier `l`, and else in 8. -/
def numberedChar (s : Specifier) (n : Int) : Except Failure Chars :=
  let code := (Integer.wrap (if s.length = .l then 32 else 8) false n).toNat
  match CodePoint.ofNat? code with
  | some c => if c.IsSurrogate then .error (.problem (.notCharacter s code)) else .ok [c]
  | none => .error (.problem (.notCharacter s code))

/-- What a character conversion writes of an argument. -/
def charPiece (s : Specifier) (a : Argument) : Except Failure Piece := do
  if a.family = .integer then
    return .chars (← numberedChar s (← a.value.toInteger))
  else
    return .ofValue a.value

def char (f : Field) (a : Argument) : Except Failure Piece := do
  a.check f.spec
  f.padPiece (← f.writable (← charPiece f.spec a))

/-- What a text conversion writes of an argument, before it is cut off. -/
def stringPiece (a : Argument) : Except Failure Piece := do
  if a.family = .text ∨ a.family = .character then
    return .ofValue a.value
  else
    return .chars (← a.value.render a.domain)

def string (f : Field) (a : Argument) : Except Failure Piece := do
  a.check f.spec
  f.padPiece (← f.truncated (← f.writable (← stringPiece a)))

/-- The output of a pointer conversion. An address has 64 bits. -/
def pointer (f : Field) (a : Argument) : Except Failure Chars := do
  a.check f.spec
  f.padText (Chars.ofString (addressText (Integer.wrap 64 false (← a.value.toInteger))))

/-- The output of a count conversion, which has none: the number of units written is stored, if the
value takes it. -/
def count (f : Field) (a : Argument) : Except Failure Piece := do
  a.check f.spec
  let _ ← a.value.store f.written
  return .chars []

def percent (f : Field) : Except Failure Chars := f.padText ['%']

def render (f : Field) (a : Argument) : Except Failure Piece :=
  match f.spec.kind with
  | .integer form => return .chars (← f.integer form a)
  | .float form _ => return .chars (← f.float form a)
  | .char => f.char a
  | .string => f.string a
  | .pointer => return .chars (← f.pointer a)
  | .count => f.count a
  | .percent => return .chars (← f.percent)

end Field

end UnitText
