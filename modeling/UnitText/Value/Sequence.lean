import UnitText.Context
import UnitText.Value.Basic

/-!
# Values as sequences

A text, an array and a combination of flags hold items. They have a size, and the first two of them
have parts.

## Main definitions

- `Value.items` — the values that a value holds
- `Value.size` — how many they are
- `Value.take` — the first of them
- `Value.contextLines` — the line of a text around a place
-/

namespace UnitText

/-- The number of items that are left before a limit, which counts from the end if negative. -/
def takenLength (length : Nat) (limit : Int) : Nat :=
  if 0 ≤ limit then limit.toNat else length - limit.natAbs

/-- The number of bits of a number that are set. -/
def bitCount (n : Nat) : Nat := (radixDigits 2 n).count '1'

namespace Value

/-- The values that a value holds: the characters of a string, the units of another text, the items
of an array, the single bits of a flag. -/
def items : Value → Except Failure (List Value)
  | text t =>
    .ok (t.units.map fun u =>
      match t.container with
      | .chars => ofChars [.ofNat u]
      | .bytes | .byteBuffer => integer u
      | .units8 | .units16 | .units32 => machineInteger (t.width.unitType.store u))
  | array type ns =>
    .ok (ns.map fun n =>
      match type with
      | .integer t => machineInteger (t.store n)
      | .float t => machineFloat (t.store (.ofRatio (n < 0) n.natAbs 1))
      | .boolean => boolean (n != 0) true)
  | table rows => .ok (rows.map fun r => text (Container.units16.pack r))
  | emptyList => .ok []
  | member m =>
    if m.enumeration.sort.isFlag then
      .ok (m.namedBits.map fun b => member ⟨m.enumeration, b.2⟩)
    else
      .error (.type (.notIterable m.enumeration.name))
  | v => .error (.type (.notIterable v.qualifiedTypeName))

/-- The number of items that a value holds. A flag counts all its bits, named or not. -/
def size : Value → Except Failure Nat
  | text t => .ok t.units.length
  | array _ items => .ok items.length
  | table rows => .ok rows.length
  | emptyList => .ok 0
  | member m =>
    if m.enumeration.sort.isFlag then .ok (bitCount m.value.natAbs)
    else .error (.type (.notSized m.enumeration.name))
  | v => .error (.type (.notSized v.qualifiedTypeName))

/-- The first items of a value, in a container of the same kind. A negative limit leaves that many
items out at the end. -/
def take (limit : Int) : Value → Except Failure Value
  | text t => .ok (text (t.container.pack (t.units.take (takenLength t.units.length limit))))
  | array type items => .ok (array type (items.take (takenLength items.length limit)))
  | table rows => .ok (table (rows.take (takenLength rows.length limit)))
  | emptyList => .ok emptyList
  | boolean _ true | machineInteger _ | machineFloat _ => .error .scalarPart
  | v => .error (.type (.notSliced v.qualifiedTypeName))

/-- The line of a string that holds a place, a marker under it, and a message. Bytes are not
searched for the ends of lines, and nothing else has lines. -/
def contextLines (v : Value) (place : Int) (message : Chars) : Except Failure (List Chars) :=
  match v with
  | text t =>
    match t.container with
    | .chars => .ok (UnitText.contextLines t.unitChars place message)
    | .bytes | .byteBuffer => .error (.type .notSearched)
    | _ => .error (v.lacks "rfind")
  | v => .error (v.lacks "rfind")

end Value

end UnitText
