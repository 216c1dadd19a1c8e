import UnitText.Text.Coding
import UnitText.Value.Calendar
import UnitText.Value.Currency
import UnitText.Value.Enumeration
import UnitText.Value.Family
import UnitText.Value.Machine

/-!
# Values

The values that can be handed to the library, whether or not it can do something with them. One of
them is an *argument*: a value that was made ready for formatting, with the family it belongs to.

Counts are stored in count slots, in variables and in some objects. Each of these is known by a
name, and a value shows what was stored under the names that are in it.

## Main definitions

- `Slots` — the counts that were stored
- `Object` — a value with a type and a text of its own
- `Value` — the values
- `Value.typeName`, `Value.qualifiedTypeName` — the name of the type of a value
- `Value.refresh` — a value after counts were stored
- `Value.store` — a value in which a count is stored
- `Value.asText`, `Value.asChars` — the text or the string that a value has to be
-/

namespace UnitText

/-- The counts that were stored, the last store first, each with the name of the slot, the variable
or the object that it was stored in. -/
abbrev Slots := List (String × Nat)

namespace Slots

/-- The count that was stored last under a name. -/
def get? (s : Slots) (name : String) : Option Nat := s.lookup name

end Slots

/-- The variable with this name after counts were stored. -/
def Variable.refresh (name : String) : Slots → Variable → Variable
  | [], x => x
  | (place, count) :: slots, x =>
    let x := x.refresh name slots
    if place = name then (x.stored count).toOption.getD x else x

/-- A part of the text of an object. -/
inductive Part where
  | own (cs : Chars)
  /-- A count slot, which is shown with what it holds. -/
  | slot (name : String) (holds : Option Nat)
  /-- A variable, which is shown with what it holds. -/
  | cell (name : String) (x : Variable)
  /-- A text that an object chooses by the count that it holds: the first one while it holds none,
  and then one of `texts` for each count, the last of them for all that are larger. -/
  | chosen (name : String) (holds : Option Nat) (first : Chars) (texts : List Chars)
deriving DecidableEq

def Part.refresh (slots : Slots) : Part → Part
  | own cs => own cs
  | slot name holds => slot name ((slots.get? name).or holds)
  | cell name x => cell name (x.refresh name slots)
  | chosen name holds first texts => chosen name ((slots.get? name).or holds) first texts

/-- A value of a type that is not known otherwise. It brings its own text, which may show slots and
variables, as that of a list does that they are put in, and counts that it takes itself. -/
structure Object where
  typeName : String
  /-- The name under which counts are stored in the object, if it takes any. -/
  name : Option String
  text : List Part
  /-- The text that messages show. -/
  shown : List Part
deriving DecidableEq

def Object.refresh (slots : Slots) (o : Object) : Object :=
  { o with text := o.text.map (Part.refresh slots), shown := o.shown.map (Part.refresh slots) }

inductive Value where
  | text (t : Text)
  /-- An array that is no text. -/
  | array (type : ElementType) (items : List Int)
  /-- An array of two dimensions, with 16-bit units. -/
  | table (rows : List (List Nat))
  /-- The list of no values, which stands for words of a command line that were taken away. -/
  | emptyList
  /-- A truth value, perhaps the element of an array. -/
  | boolean (b : Bool) (isElement : Bool)
  | integer (n : Int)
  /-- An integer that is the element of an array. -/
  | machineInteger (x : MachineInteger)
  | float (x : Double)
  /-- A floating-point number that is the element of an array. -/
  | machineFloat (x : MachineFloat)
  /-- No value; as an address, the null address. -/
  | none
  | address (n : Int)
  /-- A variable of the C language. -/
  | cell (name : String) (x : Variable)
  /-- A count slot, and what it holds at the time. -/
  | slot (name : String) (holds : Option Nat)
  | decimal (d : Decimal)
  | currency (c : Currency)
  | member (m : Member)
  | date (d : Date)
  | time (t : TimeOfDay)
  | dateTime (d : DateTime)
  | duration (d : Duration)
  /-- Any other value. -/
  | object (o : Object)
  /-- An argument: a value with its family, the number of bits of a machine number or an address,
  whether an integer has a sign, and the domain of a value with a notation of its own. -/
  | argument (family : Family) (value : Value) (bits : Option Nat) (signed : Bool)
      (domain : Option Domain)
deriving DecidableEq

/-- The name of the type of texts in a container. -/
def Container.typeName : Container → String
  | chars => "str"
  | bytes => "bytes"
  | byteBuffer => "bytearray"
  | units8 | units16 | units32 => "ndarray"

namespace Value

def typeName : Value → String
  | text t => t.container.typeName
  | array _ _ => "ndarray"
  | table _ => "ndarray"
  | emptyList => "list"
  | boolean _ _ => "bool"
  | integer _ => "int"
  | machineInteger x => x.type.elementName
  | float _ => "float"
  | machineFloat x => x.type.elementName
  | none => "NoneType"
  | address _ => "Address"
  | cell _ x => x.typeName
  | slot _ _ => "CountSlot"
  | decimal _ => "Decimal"
  | currency _ => "Currency"
  | member m => m.enumeration.name
  | date _ => "date"
  | time _ => "time"
  | dateTime _ => "datetime"
  | duration _ => "timedelta"
  | object o => o.typeName
  | argument _ _ _ _ _ => "Argument"

/-- The name of the type of a value with the name of the library that defines it. -/
def qualifiedTypeName (v : Value) : String :=
  let library := match v with
    | text t => if t.container.typeName = "ndarray" then "numpy." else ""
    | array _ _ | table _ => "numpy."
    | boolean _ isElement => if isElement then "numpy." else ""
    | machineInteger _ | machineFloat _ => "numpy."
    | decimal _ => "decimal."
    | date _ | time _ | dateTime _ | duration _ => "datetime."
    | _ => ""
  library ++ v.typeName

/-- That a value lacks a property. -/
def lacks (v : Value) (property : String) : Failure :=
  .property (.missing v.qualifiedTypeName property)

/-- The value after counts were stored. -/
def refresh (slots : Slots) : Value → Value
  | slot name holds => slot name ((slots.get? name).or holds)
  | cell name x => cell name (x.refresh name slots)
  | object o => object (o.refresh slots)
  | argument family v bits signed domain => argument family (v.refresh slots) bits signed domain
  | v => v

/-- The name under which counts are stored in a value. -/
def place? : Value → Option String
  | slot name _ | cell name _ => some name
  | object o => o.name
  | _ => Option.none

/-- The value after a count was stored in it, if it takes one. -/
def store (count : Nat) (v : Value) : Except Failure Value :=
  match v with
  | slot name _ => .ok (slot name (some count))
  | cell name x => return cell name (← x.stored count)
  | object o =>
    match o.name with
    | some name => .ok (object (o.refresh [(name, count)]))
    | Option.none => .error (v.lacks "value")
  | member _ => .error (.property (.ofMembers "value"))
  | address _ | currency _ | argument _ _ _ _ _ => .error (.property (.frozen "value"))
  | v => .error (v.lacks "value")

/-- The text that a value is, if it is one. -/
def asText : Value → Except Failure Text
  | text t => .ok t
  | v => .error (.type (.notText v.typeName))

def isText : Value → Bool
  | text _ => true
  | _ => false

def ofChars (cs : Chars) : Value := text (.ofChars cs)

/-- The characters of the string that a value is, if it is one. -/
def chars? : Value → Option Chars
  | text t => if t.container = .chars then some t.unitChars else Option.none
  | _ => Option.none

/-- The characters of the string that a value is. No other value will do. -/
def asChars (v : Value) : Except Failure Chars :=
  match v.chars? with
  | some cs => .ok cs
  | Option.none => .error .demand

@[simp] theorem chars?_ofChars (cs : Chars) : (ofChars cs).chars? = some cs := by
  simp [ofChars, chars?]

end Value

end UnitText
