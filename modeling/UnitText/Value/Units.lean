import UnitText.Value.Quoted
import UnitText.Value.Sequence

/-!
# Values and code units

What can be done with the code units of values that need not be texts: counting, cutting and packing
them, and reading a value as a single unit.

## Main definitions

- `Value.codeUnit` — the code unit that a value is
- `Value.unitCount`, `Value.truncate` — the units that a value takes, and its longest part that fits
- `Value.encodeLike`, `Value.ofUnits`, `Value.ofUnitString` — texts in the container of another
  value
-/

namespace UnitText

/-- The longest beginning of a text that takes at most `limit` units, without splitting a character.
In the widest units, a negative limit leaves that many characters out at the end. -/
def Width.truncate (w : Width) (limit : Int) (cs : Chars) : Except Failure Chars :=
  match w with
  | .wide32 => .ok (cs.take (takenLength cs.length limit))
  | w => go w limit cs
where
  /-- The beginning of a text that takes at most `limit` units. -/
  go (w : Width) (limit : Int) : Chars → Except Failure Chars
    | [] => .ok []
    | c :: cs =>
      match w.unitCount [c] with
      | .error e => .error e
      | .ok n => if limit < n then .ok [] else (go w (limit - n) cs).map (c :: ·)

/-- The container of texts that are arrays of elements of a type. -/
def ElementType.container? : ElementType → Option Container
  | integer ⟨8, false, _⟩ => some .units8
  | integer ⟨16, false, _⟩ => some .units16
  | integer ⟨32, false, _⟩ => some .units32
  | _ => none

namespace Value

/-- The number of a code unit, if one of this width can hold it. -/
def fittingUnit (w : Width) (n : Int) : Except Failure Nat :=
  if 0 ≤ n ∧ n < w.unitLimit then .ok n.toNat else .error (.value (.unitOutside n w))

/-- The unit of a single character, if it takes only one. -/
def characterUnit (w : Width) (c : CodePoint) : Except Failure Nat := do
  match ← w.encode [c] with
  | [u] => fittingUnit w u
  | _ => throw (.value (.severalUnits [c] w))

/-- The code unit that a value is: an integer, a single byte or a single character. -/
def codeUnit (w : Width) (v : Value) : Except Failure Nat :=
  let refused : Except Failure Nat := do throw (.value (.notUnit (← v.quoted)))
  match v with
  | integer n => fittingUnit w n
  | machineInteger x => fittingUnit w x.value
  | member m => if m.enumeration.sort.isInteger then fittingUnit w m.value else refused
  | text t =>
    match t.container, t.units with
    | .chars, [u] => characterUnit w (.ofNat u)
    | .bytes, [u] => fittingUnit w u
    | .byteBuffer, [u] => fittingUnit w u
    | _, _ => refused
  | _ => refused

/-- The number of units that a value takes. In the widest units, every item is one; in other widths
only strings take units. -/
def unitCount (w : Width) (v : Value) : Except Failure Nat :=
  match w with
  | .wide32 => v.size
  | w => do w.unitCount (← v.asChars)

/-- The longest beginning of a value that takes at most `limit` units. In the widest units, it has
at most that many items; in other widths, a value that is no string has to be empty. -/
def truncate (w : Width) (limit : Int) (v : Value) : Except Failure Value := do
  match w, v.chars? with
  | .wide32, _ => v.take limit
  | w, some cs => return ofChars (← w.truncate limit cs)
  | _, Option.none => if (← v.items).isEmpty then return v else throw .demand

/-- The type of the elements of an array, or of a number that is an element itself. -/
def elementType? : Value → Option ElementType
  | text t =>
    match t.container with
    | .units8 | .units16 | .units32 => some (.integer t.width.unitType)
    | _ => Option.none
  | array type _ => some type
  | table _ => some (.integer Width.wide16.unitType)
  | boolean _ true => some .boolean
  | machineInteger x => some (.integer x.type)
  | machineFloat x => some (.float x.type)
  | _ => Option.none

/-- The type of the elements of a value, which has to have one. -/
def elementType (v : Value) : Except Failure ElementType :=
  match v.elementType? with
  | some t => .ok t
  | Option.none => .error (v.lacks "dtype")

def ofElements (type : ElementType) (items : List Int) : Value :=
  match type.container? with
  | some k => text (k.pack (items.map Int.toNat))
  | Option.none => array type items

/-- A string encoded in the container of a text. A string is a container for any value. -/
def encodeLike (v like : Value) : Except Failure Value := do
  if like.chars?.isSome then
    return v
  let t ← like.asText
  return text (← Text.encodeLike (← v.asChars) t.container)

/-- The units of a text in a container like that of another value: a text, or anything whose
elements have a type. -/
def ofUnits (v like : Value) : Except Failure Value := do
  let t ← v.asText
  let ofType : Except Failure Value := do
    let type ← like.elementType
    return ofElements type (t.units.map type.convert)
  match like with
  | text l =>
    match l.container with
    | .chars | .bytes | .byteBuffer => return text (← t.repack l.container)
    | _ => ofType
  | _ => ofType

/-- The number of a value that is a single character, as an element of a type. -/
def characterElement (type : ElementType) (v : Value) : Except Failure Int :=
  match v.chars? with
  | some [c] => type.hold c.val
  | _ => .error (.type (.notCharacter v.qualifiedTypeName))

/-- The characters of a value, each as one unit, in a container like that of another value. A string
is a container for any value. -/
def ofUnitString (v like : Value) : Except Failure Value := do
  let ofType : Except Failure Value := do
    let items ← v.items
    let type ← like.elementType
    return ofElements type (← items.mapM (characterElement type))
  match like with
  | text l =>
    match l.container with
    | .chars => return v
    | .bytes | .byteBuffer =>
      match v.chars? with
      | some cs => return text (← Text.ofUnitString cs l.container)
      | Option.none => throw (v.lacks "encode")
    | _ => ofType
  | _ => ofType

end Value

end UnitText
