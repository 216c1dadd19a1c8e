import UnitText.Numeral.Basic
import UnitText.Value.Number

/-!
# Parsing values

A text is read as a number of a type that the caller names, or as the most specific value that it
writes.

## Main definitions

- `Target` — the types that a caller can name
- `parse`, `tryParse` — the number that a text is
- `autoValue` — the most specific value that a text writes
-/

namespace UnitText

/-- The types of values that a caller can ask for. -/
inductive Target where
  | integer
  | float
  | decimal
  | text
  | boolean
deriving DecidableEq

namespace Target

def typeName : Target → String
  | integer => "int"
  | float => "float"
  | decimal => "Decimal"
  | text => "str"
  | boolean => "bool"

/-- The styles that a number of this type is read with by default. -/
def styles? : Target → Option Styles
  | integer => some .integer
  | float => some .groupedFloat
  | decimal => some .groupedFloat
  | text => none
  | boolean => none

end Target

/-- The number of the type named that a text is. -/
def parse (target : Target) (styles? : Option Styles) (v : Value) : Except Failure Value := do
  match target.styles? with
  | none => throw (.type (.notParsed target.typeName))
  | some default =>
    let t ← v.asText
    let s := styles?.getD default
    match target with
    | .integer => return .integer (← parseInteger s t)
    | .float => return .float (← parseFloat s t)
    | _ => return .decimal (← parseDecimal s t)

/-- The result of reading a number, or `none` if there is no number. Other failures remain. -/
def tried {α : Type} : Except Failure α → Except Failure (Option α)
  | .ok a => .ok (some a)
  | .error (.problem p) => if p.category = .invalidNumber then .ok none else .error (.problem p)
  | .error e => .error e

/-- The number of the type named that a text is, or `none` if it is none. -/
def tryParse (target : Target) (styles? : Option Styles) (v : Value) :
    Except Failure (Option Value) :=
  tried (parse target styles? v)

/-- The word for a truth value that a string is. -/
def booleanWord? (t : Text) : Option Bool :=
  if t = .ofString "true" then some true
  else if t = .ofString "false" then some false
  else none

/-- Whether a text can be told from a word. An array is compared with it element by element, and
only a single element has an outcome. -/
def comparable (t : Text) : Except Failure Unit := do
  match (Value.text t).elements? with
  | some ns => let _ ← arrayTruth (ns.map fun _ => false)
  | none => pure ()

/-- The most specific value that a text writes: an integer, a floating-point number, a truth value,
or else the text itself. -/
def autoValue (t : Text) : Except Failure Value := do
  match ← tried (parseInteger .any t) with
  | some n => return .integer n
  | none =>
    match ← tried (parseFloat .float t) with
    | some x => return .float x
    | none =>
      comparable t
      match booleanWord? t with
      | some b => return .boolean b false
      | none => return .text t

end UnitText
