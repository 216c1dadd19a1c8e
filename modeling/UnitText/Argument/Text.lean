import UnitText.Argument.Basic
import UnitText.Value.Notation
import UnitText.Value.Piece

/-!
# Default texts

Every argument has a default text: `true` or `false`, the shortest digits of a number, a text
itself, and the notation of its domain for a value that has one.

## Main definitions

- `Argument.text`, `Value.defaultText` — the default text of an argument and of a value
- `concat`, `concatAs` — the default texts of several values, one after the other
-/

namespace UnitText

/-- A truth value in default texts and in decimal conversions. -/
def booleanText (b : Bool) : String := if b then "true" else "false"

def Argument.text (a : Argument) : Except Failure Piece :=
  match a.family, a.domain with
  | .boolean, _ => return .chars (Chars.ofString (booleanText (← a.value.isTrue)))
  | _, some d => return .chars (← a.value.render (some d))
  | .integer, none => return .chars (Chars.ofString (← Value.integerText (← a.value.toInteger)))
  | .float, none => return .chars (Chars.ofString (← a.value.toFloat).text)
  | .character, none => .ok (.ofValue a.value)
  | .text, none => .ok (.ofValue a.value)
  | .address, none => return .chars (Chars.ofString (← a.value.addressText))
  | .slot, none => return .chars (← a.value.plainText)
  | .other, none => return .chars (← a.value.plainText)

def Value.defaultText (v : Value) : Except Failure Piece := do (← v.adapt).text

/-- The default texts of several values, one after the other. -/
def concat (values : List Value) : Except Failure Chars := do
  Piece.join (← values.mapM Value.defaultText)

/-- The default texts of several values in a text of the width given. -/
def concatAs (w : Width) (values : List Value) : Except Failure Text := do
  w.encodeText (← concat values)

end UnitText
