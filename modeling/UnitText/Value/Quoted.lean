import UnitText.Number.Shortest
import UnitText.Numeral.DecimalText
import UnitText.Value.Basic

/-!
# Texts of values

How messages show a value, and the text that a value has of itself, apart from any notation.

## Main definitions

- `Value.quoted` — a value as messages show it
- `Value.plainText` — the text of a value
- `Currency.create` — the amount of money that a value is
-/

namespace UnitText

/-- A count slot as messages show it, by what it holds. -/
def slotText (holds : Option Nat) : String :=
  "<CountSlot " ++ (match holds with
    | some n => n.repr
    | none => "None") ++ ">"

def booleanWord (b : Bool) : String := if b then "True" else "False"

def ElementType.itemText : ElementType → Int → String
  | integer _, n => Integer.text n
  | float _, n => Integer.text n ++ "."
  | boolean, n => booleanWord (n != 0)

/-- An array of elements of a type, here with their texts. -/
def arrayText (type : ElementType) (items : List String) : String :=
  "array([" ++ ", ".intercalate items ++ "], dtype=" ++ type.name ++ ")"

/-- A text as messages show it. Arrays are shown by their units. -/
def Text.quoted (t : Text) : String :=
  match t.container with
  | .chars => t.unitChars.quoted
  | .bytes => Bytes.quoted t.units
  | .byteBuffer => "bytearray(" ++ Bytes.bufferQuoted t.units ++ ")"
  | .units8 | .units16 | .units32 =>
    arrayText (.integer t.width.unitType) (t.units.map Nat.repr)

/-- The text of a floating-point number, by itself, that is the element of an array. -/
def MachineFloat.text (x : MachineFloat) : String :=
  match x.type.format? with
  | some f => x.value.textIn f
  | none => x.value.text

/-- A variable as messages show it. -/
def Variable.quoted (x : Variable) : String :=
  x.typeName ++ "(" ++
    (match x with
      | integer x => Integer.text x.value
      | float x => x.value.text
      | byte b => Bytes.quoted [b]
      | character c => Chars.quoted [c]
      | pointer n => if n.val = 0 then "None" else n.val.repr) ++ ")"

def Part.chars : Part → Chars
  | own cs => cs
  | slot _ holds => Chars.ofString (slotText holds)
  | cell _ x => Chars.ofString x.quoted
  | chosen _ none first _ => first
  | chosen _ (some n) first texts => (texts[n]?).getD (texts.getLastD first)

namespace Value

def integerText (n : Int) : Except Failure String :=
  match Integer.text? n with
  | some s => .ok s
  | Option.none => .error (.value .tooLongToWrite)

def quoted : Value → Except Failure String
  | text t => .ok t.quoted
  | array type items => .ok (arrayText type (items.map type.itemText))
  | table rows =>
    .ok (arrayText (.integer Width.wide16.unitType)
      (rows.map fun r => "[" ++ ", ".intercalate (r.map Nat.repr) ++ "]"))
  | emptyList => .ok "[]"
  | boolean b isElement => .ok (if isElement then "np." ++ booleanWord b ++ "_" else booleanWord b)
  | integer n => integerText n
  | machineInteger x => .ok ("np." ++ x.type.elementName ++ "(" ++ Integer.text x.value ++ ")")
  | float x => .ok x.text
  | machineFloat x => .ok ("np." ++ x.type.elementName ++ "(" ++ x.text ++ ")")
  | none => .ok "None"
  | address n => return "Address(value=" ++ (← integerText n) ++ ")"
  | cell _ x => .ok x.quoted
  | slot _ holds => .ok (slotText holds)
  | decimal d => .ok d.quoted
  | currency c => .ok c.quoted
  | member m => m.quoted
  | date d => .ok d.quoted
  | time t => .ok t.quoted
  | dateTime d => .ok d.quoted
  | duration d => .ok d.quoted
  | object o => .ok (Chars.toString (o.shown.flatMap Part.chars))
  | argument family v bits signed domain => do
    let value ← v.quoted
    return "Argument(kind=<ArgKind." ++ family.name ++ ": " ++ family.number.repr ++ ">, value=" ++
      value ++ ", bits=" ++ (bits.map Nat.repr).getD "None" ++ ", signed=" ++ booleanWord signed ++
      ", domain=" ++
      (match domain with
        | some d => "<DomainKind." ++ d.name ++ ": " ++ d.number.repr ++ ">"
        | Option.none => "None") ++ ")"

/-- The text of a value, apart from any notation: a string is its own text, numbers are written in
decimal, and most other values are shown as in messages. -/
def plainText : Value → Except Failure Chars
  | text t =>
    match t.container with
    | .chars => .ok t.unitChars
    | _ => .ok (Chars.ofString t.quoted)
  | boolean b _ => .ok (Chars.ofString (booleanWord b))
  | machineInteger x => .ok (Chars.ofString (Integer.text x.value))
  | machineFloat x => .ok (Chars.ofString x.text)
  | decimal d => .ok (Chars.ofString d.text)
  | member m => return Chars.ofString (← m.plainText)
  | date d => .ok (Chars.ofString d.text)
  | time t => .ok (Chars.ofString t.text)
  | dateTime d => .ok (Chars.ofString d.text)
  | duration d => .ok (Chars.ofString d.plainText)
  | object o => .ok (o.text.flatMap Part.chars)
  | v => return Chars.ofString (← v.quoted)

end Value

/-- The amount of money that a value is: a decimal number as it is, any other value by the number in
its text. -/
def Currency.create (amount : Value) (symbol : Chars) (decimals : Int) : Except Failure Currency :=
  match amount with
  | .decimal d => .ok { amount := d, symbol, decimals }
  | v => do return { amount := ← Decimal.ofChars (← v.plainText), symbol, decimals }

end UnitText
