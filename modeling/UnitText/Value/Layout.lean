import UnitText.Value.Number

/-!
# Layouts by a letter

A letter lays out a number: in decimal, in another base, or with a fixed number of places. Dates and
times take any text for a pattern, and a letter by itself is a pattern that asks for nothing.

## Main definitions

- `Value.layout` — a value laid out by a letter
-/

namespace UnitText

/-- A finite floating-point number with a fixed number of places. -/
def Double.fixedChars (x : Double) (places : Nat) : List Char :=
  (Figures.fixed x.decimalParts.1 x.decimalParts.2 places).chars false

/-- The number of places of a number that has none of its own. -/
def defaultPlaces : Nat := 6

/-- A floating-point number as a fixed-point one. -/
def Double.fixedText (x : Double) : String :=
  if x.isFinite then
    (if x.negative then "-" else "") ++ String.ofList (x.fixedChars defaultPlaces)
  else
    x.text

/-- The digits of a number in lower-case or, with a capital letter, in upper-case hexadecimal. -/
def hexDigits (letter : Char) (n : Nat) : List Char :=
  if letter = 'X' then (radixDigits 16 n).map Char.toUpper else radixDigits 16 n

/-- An integer, laid out by a letter. With a fixed number of places, it is read as a floating-point
number first. -/
def Integer.layout (letter : Char) (n : Int) : Except Failure String :=
  let signed (digits : List Char) : Except Failure String :=
    .ok (String.ofList (if n < 0 then '-' :: digits else digits))
  match letter with
  | 'f' => return (← Double.ofInteger n).fixedText
  | 'b' => signed (radixDigits 2 n.natAbs)
  | 'o' => signed (radixDigits 8 n.natAbs)
  | 'x' | 'X' => signed (hexDigits letter n.natAbs)
  | _ => Value.integerText n

namespace Value

/-- The value laid out by a letter. Decimal and floating-point numbers are only laid out with
places; members of an enumeration of names are laid out as strings, which no letter is for. -/
def layout (letter : Char) (v : Value) : Except Failure String :=
  match v.integer?, v.float? with
  | some n, _ => Integer.layout letter n
  | _, some x =>
    if letter = 'f' then .ok x.fixedText else .error (.value (.unknownLayout letter "float"))
  | _, _ =>
    match v with
    | decimal d => if letter = 'f' then .ok d.fixedText else .error (.value .decimalFormat)
    | date _ | time _ | dateTime _ => .ok (String.singleton letter)
    | member _ => .error (.value (.unknownLayout letter "str"))
    | v =>
      if v.chars?.isSome then .error (.value (.unknownLayout letter "str"))
      else .error (.type (.noLayout v.qualifiedTypeName))

end Value

end UnitText
