import UnitText.Failure

/-!
# Enumerations

An enumeration names some integers. In an enumeration of flags, a value may also combine several of
the named ones; a combination without a name of its own is named after the single bits in it.

## Main definitions

- `Enumeration` — the names of an enumeration, with `Enumeration.create`
- `Member` — a value of an enumeration, with `Member.create` and `Member.name?`
- `Member.text` — the name of a member, or its number if it has none
-/

namespace UnitText

inductive EnumerationSort where
  /-- Members are no integers. -/
  | plain
  | integer
  | flag
  /-- Members are flags and integers. Bits without a name are kept. -/
  | integerFlag
deriving DecidableEq

namespace EnumerationSort

/-- Whether members of the enumeration are integers themselves. -/
def isInteger : EnumerationSort → Bool
  | integer => true
  | integerFlag => true
  | _ => false

def isFlag : EnumerationSort → Bool
  | flag => true
  | integerFlag => true
  | _ => false

end EnumerationSort

structure Enumeration where
  sort : EnumerationSort
  name : String
  /-- The named values, in order. Of several names for one value, the first is its name. -/
  members : List (String × Int)
deriving DecidableEq

namespace Enumeration

/-- Names behind those in `seen`, none of which may be given a second time. -/
def checkNames (seen : List (String × Int)) : List (String × Int) → Except Failure Unit
  | [] => .ok ()
  | (name, value) :: rest =>
    match seen.lookup name with
    | some first => .error (.type (.namedTwice (Chars.ofString name).quoted first))
    | none => checkNames ((name, value) :: seen) rest

/-- The enumeration with these names, each of which is given once. -/
def create (sort : EnumerationSort) (name : String) (members : List (String × Int)) :
    Except Failure Enumeration := do
  checkNames [] members
  return ⟨sort, name, members⟩

def nameOf? (e : Enumeration) (value : Int) : Option String :=
  (e.members.find? (·.2 == value)).map (·.1)

def bits (e : Enumeration) : List (String × Nat) :=
  e.members.filterMap fun (name, value) =>
    let n := value.toNat
    if 0 < value ∧ n = 2 ^ n.log2 ∧ e.nameOf? value = some name then some (name, n) else none

def mask (e : Enumeration) : Nat := e.bits.foldl (fun n b => n ||| b.2) 0

/-- The least power of two above all named bits. -/
def bound (e : Enumeration) : Nat := if e.mask = 0 then 1 else 2 ^ (e.mask.log2 + 1)

/-- Whether a combination needs bits that have no name. -/
def isOutside (e : Enumeration) (value : Int) : Bool :=
  value < -e.bound || (e.bound : Int) ≤ value ||
    (value % e.bound).toNat &&& (e.bound - 1 - e.mask) != 0

/-- The value that a combination of flags stands for. Bits without a name are dropped if members are
no integers. A negative number stands for the bits that it does not miss. -/
def combination (e : Enumeration) (value : Int) : Int :=
  if e.isOutside value then
    match e.sort with
    | .flag => ((value % e.bound).toNat &&& e.mask : Nat)
    | _ =>
      if value < 0 then max (e.bound : Int) (2 ^ (value.natAbs.log2 + 1) : Nat) + value else value
  else if value < 0 then
    e.bound + value
  else
    value

end Enumeration

/-- A value of an enumeration. -/
structure Member where
  enumeration : Enumeration
  value : Int
deriving DecidableEq

namespace Member

/-- The member of an enumeration with a value. Only flags have values that are not named. -/
def create (e : Enumeration) (value : Int) : Except Failure Member :=
  if (e.nameOf? value).isSome then .ok ⟨e, value⟩
  else if e.sort.isFlag then .ok ⟨e, e.combination value⟩
  else .error (.value (.notMember value e.name))

def namedBits (m : Member) : List (String × Nat) :=
  m.enumeration.bits.filter fun b => m.value.toNat &&& b.2 != 0

/-- The name of a member. A combination is named after its bits; bits that have no name are
appended as a number. A combination without any named bit has no name. -/
def name? (m : Member) : Option String :=
  match m.enumeration.nameOf? m.value with
  | some name => some name
  | none =>
    if m.namedBits = [] then
      none
    else
      let unnamed := m.value.toNat - (m.value.toNat &&& m.enumeration.mask)
      some ("|".intercalate (m.namedBits.map (·.1) ++ if unnamed = 0 then [] else [unnamed.repr]))

def number (m : Member) : Except Failure String :=
  match Integer.text? m.value with
  | some s => .ok s
  | none => .error (.value .tooLongToWrite)

/-- The name of a member, or its number if it has none. -/
def text (m : Member) : Except Failure String :=
  match m.name? with
  | some name => .ok name
  | none => m.number

def quoted (m : Member) : Except Failure String := do
  let number ← m.number
  let name := match m.name? with
    | some name => "." ++ name
    | none => ""
  return "<" ++ m.enumeration.name ++ name ++ ": " ++ number ++ ">"

/-- The text of a member apart from its notation: its number if it is an integer, and otherwise its
name behind the name of the enumeration. -/
def plainText (m : Member) : Except Failure String :=
  if m.enumeration.sort.isInteger then
    m.number
  else
    match m.name? with
    | some name => .ok (m.enumeration.name ++ "." ++ name)
    | none => return m.enumeration.name ++ "(" ++ (← m.number) ++ ")"

end Member

end UnitText
