import UnitText.Value.Quoted

/-!
# Arguments

Before a value is formatted it is *adapted*: it becomes an `Argument`, which says what family of
values it belongs to. Conversions look at the family first and read the value accordingly. An
argument may also be handed in ready made; it is left as it is, even if its value is not of its
family.

## Main definitions

- `Argument`, with `Argument.description` and `Argument.quoted`
- `Value.adapt` — the argument for a value
-/

namespace UnitText

/-- An adapted value. -/
structure Argument where
  family : Family
  value : Value
  /-- The number of bits of a machine number or an address. -/
  bits : Option Nat := none
  /-- Whether an integer has a sign. -/
  signed : Bool := true
  /-- The domain of a value with a notation of its own. -/
  domain : Option Domain := none
deriving DecidableEq

namespace Argument

/-- The argument in messages: its domain, its machine type or its family. -/
def description (a : Argument) : String :=
  (match a.domain, a.family, a.bits with
    | some d, _, _ => d.description
    | none, .integer, some bits => (if a.signed then "int" else "uint") ++ bits.repr
    | none, family, _ => family.description) ++ " argument"

def quoted (a : Argument) : Except Failure String := a.value.quoted

/-- The argument as a value of its own. -/
def toValue (a : Argument) : Value := .argument a.family a.value a.bits a.signed a.domain

/-- A value of another kind, with its domain. -/
def ofOther (v : Value) (d : Domain) : Argument :=
  { family := .other, value := v, domain := some d }

end Argument

/-- The argument for a variable, which is read at that time. -/
def Variable.adapt : Variable → Argument
  | integer x =>
    { family := .integer, value := .integer x.value, bits := some x.type.bits,
      signed := x.type.signed }
  | float x => { family := .float, value := .float x.value, bits := some x.type.bits }
  | byte b => { family := .character, value := .ofChars [.ofNat b], bits := some 8 }
  | character c => { family := .character, value := .ofChars [c], bits := some 32 }
  | pointer n =>
    { family := .address, value := .integer n.val, bits := some 64, signed := false }

namespace Value

/-- The domain of a value that is neither a number nor a text. -/
def domain : Value → Domain
  | decimal _ => .fixedPoint
  | currency _ => .currency
  | member _ => .enumeration
  | date _ | time _ | dateTime _ => .dateTime
  | duration _ => .duration
  | _ => .object

def adapt : Value → Except Failure Argument
  | argument family v bits signed domain => .ok { family, value := v, bits, signed, domain }
  | boolean b _ => .ok { family := .boolean, value := boolean b false }
  | integer n => .ok { family := .integer, value := integer n }
  | machineInteger x =>
    .ok { family := .integer, value := integer x.value, bits := some x.type.bits,
          signed := x.type.signed }
  | float x => .ok { family := .float, value := float x, bits := some 64 }
  | machineFloat x => .ok { family := .float, value := float x.value, bits := some x.type.bits }
  | none => .ok { family := .address, value := integer 0, bits := some 64, signed := false }
  | address n => .ok { family := .address, value := integer n, bits := some 64, signed := false }
  | cell _ x => .ok x.adapt
  | text t => return { family := .text, value := ofChars (← t.decode) }
  | slot name holds => .ok { family := .slot, value := slot name holds }
  | member m =>
    if m.enumeration.sort.isInteger then
      .ok { family := .integer, value := member m, domain := some .enumeration }
    else
      .ok (.ofOther (member m) .enumeration)
  | v => .ok (.ofOther v v.domain)

@[simp] theorem adapt_toValue (a : Argument) : a.toValue.adapt = .ok a := rfl

end Value

end UnitText
