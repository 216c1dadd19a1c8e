import UnitText.Value.Layout

/-!
# Notations

The text of a value in the notation of a domain.

## Main definitions

- `Value.render` — a value in the notation of a domain
- `Value.addressText` — a value as an address
-/

namespace UnitText

def addressText (n : Int) : String :=
  if n = 0 then "(nil)" else "0x" ++ (if n < 0 then "-" else "") ++ hexText 0 n.natAbs

namespace Value

/-- A value as an address, in hexadecimal. -/
def addressText (v : Value) : Except Failure String := do
  if ← v.isZero then return "(nil)" else return "0x" ++ (← v.layout 'x')

/-- The type of a number by itself: an element of an array counts as a number of no machine type. -/
def plainTypeName (v : Value) : String :=
  match v with
  | boolean _ true => "bool"
  | machineInteger _ => "int"
  | machineFloat _ => "float"
  | array (.float _) _ => "float"
  | array .boolean _ => "bool"
  | v => if v.elements?.isSome then "int" else v.qualifiedTypeName

/-- Why a value is no duration. An array is one or not by its elements; without any, it is divided
and then has no sign. -/
def durationFailure (v : Value) : Failure :=
  if v.elements? = some [] then .value .emptyTruth else .type (.notDuration v.plainTypeName)

/-- The value in the notation of a domain. There is no text without a domain, nor for a value that
lacks what the notation needs. -/
def render (domain : Option Domain) (v : Value) : Except Failure Chars :=
  match domain, v with
  | Option.none, _ => .error (.defect .noDomain)
  | some .enumeration, member m => return Chars.ofString (← m.text)
  | some .dateTime, date d => .ok (Chars.ofString d.text)
  | some .dateTime, time t => .ok (Chars.ofString t.text)
  | some .dateTime, dateTime d => .ok (Chars.ofString d.text)
  | some .duration, duration d => .ok (Chars.ofString d.text)
  | some .currency, currency c => c.text
  | some .fixedPoint, v => return Chars.ofString (← v.layout 'f')
  | some .object, v => v.plainText
  | some .enumeration, v => .error (v.lacks "name")
  | some .dateTime, v => .error (v.lacks "isoformat")
  | some .duration, v => .error v.durationFailure
  | some .currency, v => .error (v.lacks "amount")

end Value

end UnitText
