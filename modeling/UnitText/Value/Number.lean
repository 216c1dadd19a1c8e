import UnitText.Number.Bytes
import UnitText.Numeral.Word
import UnitText.Value.Quoted

/-!
# Values as numbers

Many values can be read as numbers, and each way to read them takes values of its own: a text is
read as an integer or as a floating-point number, but is no real number; an address is an integer
only.

## Main definitions

- `Value.toInteger`, `Value.toFloat` — a value read as an integer or as a floating-point number
- `Value.toReal` — the real number that a value is
- `Value.magnitude` — a value without its sign
- `Value.isZero`, `Value.isTrue` — whether a value is zero, and what it is as a truth value
- `Value.wrap` — an integer stored in a machine integer that values describe
-/

namespace UnitText

def Decimal.toInteger : Decimal → Except Failure Int
  | finite negative c e =>
    let n := if 0 ≤ e then c * 10 ^ e.toNat
      else if digitCount c ≤ (-e).toNat then 0
      else c / 10 ^ (-e).toNat
    .ok (if negative then -n else n)
  | infinite _ => .error (.range .decimalInfinityNotInteger)
  | nan _ _ _ => .error (.value .decimalNaNNotInteger)

def Double.toInteger (x : Double) : Except Failure Int :=
  if x.isFinite then .ok x.truncated
  else if x.isNaN then .error (.value .nanNotInteger)
  else .error (.range .infinityNotInteger)

/-- The truth value of an array with these elements: it needs to have exactly one. -/
def arrayTruth : List Bool → Except Failure Bool
  | [] => .error (.value .emptyTruth)
  | [b] => .ok b
  | _ => .error (.value .severalTruths)

/-- The bytes of what a variable holds. -/
def Variable.bytes : Variable → List Nat
  | integer x => littleEndian (x.type.bits / 8) (x.value % (2 ^ x.type.bits : Nat)).toNat
  | float x =>
    match x.type.bits with
    | 32 => littleEndian 4 x.value.singleBits
    | 64 => littleEndian 8 x.value.bits
    | _ => littleEndian 16 x.value.extendedBits
  | byte b => [b]
  | character c => littleEndian 4 c.val
  | pointer n => littleEndian 8 n

namespace Value

/-- The elements of an array, whatever its shape. -/
def elements? : Value → Option (List Int)
  | array _ items => some items
  | table rows => some (rows.flatten.map Int.ofNat)
  | text t =>
    match t.container with
    | .units8 | .units16 | .units32 => some (t.units.map Int.ofNat)
    | _ => Option.none
  | _ => Option.none

/-- The integer that a value is by its type. -/
def integer? : Value → Option Int
  | integer n => some n
  | machineInteger x => some x.value
  | boolean b _ => some (if b then 1 else 0)
  | member m => if m.enumeration.sort.isInteger then some m.value else Option.none
  | _ => Option.none

/-- The floating-point number that a value is by its type. -/
def float? : Value → Option Double
  | float x => some x
  | machineFloat x => some x.value
  | _ => Option.none

/-- The bytes of a variable. -/
def variableBytes? : Value → Option (List Nat)
  | cell _ x => some x.bytes
  | _ => Option.none

/-- The bytes of a value that is read as if its bytes were text. -/
def bytes? : Value → Option (List Nat)
  | text t =>
    match t.container with
    | .bytes | .byteBuffer => some t.units
    | _ => Option.none
  | v => v.variableBytes?

/-- The longest piece of a text that is quoted when it is no integer. -/
def quoteLimit : Nat := 200

/-- What is quoted of a text that is no integer. -/
def clipped (quoted : String) : String := String.ofList (quoted.toList.take quoteLimit)

/-- The value read as an integer. Numbers lose their places, texts and bytes are read as words. -/
def toInteger (v : Value) : Except Failure Int :=
  match v.integer?, v.float?, v.chars?, v.bytes? with
  | some n, _, _, _ => .ok n
  | _, some x, _, _ => x.toInteger
  | _, _, some cs, _ => Integer.ofWord (clipped cs.quoted) cs.asciiForm
  | _, _, _, some bs =>
    Integer.ofWord (clipped (Bytes.quoted (bs.take quoteLimit))) (bs.map CodePoint.ofNat)
  | _, _, _, _ =>
    match v with
    | decimal d => d.toInteger
    | address n => .ok n
    | v =>
      if v.elements?.isSome then .error (.type .arrayNotNumber)
      else .error (.type (.notInteger v.qualifiedTypeName))

/-- The real number that a value is, if it is one; `refused` says what a value is else. -/
def numberOr (refused : TypeFault) (v : Value) : Except Failure Double :=
  match v.integer?, v.float?, v with
  | some n, _, _ => Double.ofInteger n
  | _, some x, _ => .ok x
  | _, _, decimal d => d.toDouble
  | _, _, v =>
    if v.elements?.isSome then .error (.type .arrayNotNumber) else .error (.type refused)

def toReal (v : Value) : Except Failure Double := v.numberOr (.notReal v.qualifiedTypeName)

/-- The value read as a floating-point number. Texts and bytes are read as words. -/
def toFloat (v : Value) : Except Failure Double :=
  match v.chars?, v.bytes? with
  | some cs, _ => Double.ofWord cs.quoted cs.asciiForm
  | _, some bs => do Double.ofWord (← v.quoted) (bs.map CodePoint.ofNat)
  | _, _ => v.numberOr (.notFloat v.qualifiedTypeName)

/-- The value without its sign. A number of a machine type stays within its type. -/
def magnitude (v : Value) : Except Failure Value :=
  match v with
  | boolean _ true => .ok v
  | machineInteger x => .ok (machineInteger (x.type.store x.value.natAbs))
  | machineFloat x => .ok (machineFloat (x.type.store x.value.abs))
  | float x => .ok (float x.abs)
  | decimal d => return decimal (← d.abs)
  | duration d => .ok (duration ⟨d.microseconds.natAbs⟩)
  | v =>
    match v.integer? with
    | some n => .ok (integer n.natAbs)
    | Option.none =>
      if v.elements?.isSome then .ok v else .error (.type (.noMagnitude v.qualifiedTypeName))

/-- Whether a value is the number zero. NaNs that signal cannot be compared. -/
def isZero (v : Value) : Except Failure Bool :=
  match v.integer?, v.float?, v.elements? with
  | some n, _, _ => .ok (n == 0)
  | _, some x, _ => .ok (x.isFinite && x.significand == 0)
  | _, _, some ns => arrayTruth (ns.map (· == 0))
  | _, _, _ =>
    match v with
    | decimal (.finite _ c _) => .ok (c == 0)
    | decimal (.nan _ true _) => .error (.signal .invalidOperation)
    | _ => .ok false

/-- The value as a truth value: numbers other than zero are true, and what holds something. -/
def isTrue (v : Value) : Except Failure Bool :=
  match v.integer?, v.float?, v.elements?, v.variableBytes? with
  | some n, _, _, _ => .ok (n != 0)
  | _, some x, _, _ => .ok (!x.isFinite || x.significand != 0)
  | _, _, some ns, _ => arrayTruth (ns.map (· != 0))
  | _, _, _, some bs => .ok (bs.any (· != 0))
  | _, _, _, _ =>
    .ok (match v with
      | text t => !t.units.isEmpty
      | emptyList | none => false
      | address n => n != 0
      | decimal (.finite _ c _) => c != 0
      | member m => !m.enumeration.sort.isFlag || m.value != 0
      | duration d => d.microseconds != 0
      | _ => true)

/-- The integer that is equal to a value, if there is one. -/
def equalInteger? (v : Value) : Option Int :=
  match v.integer?, v.float? with
  | some n, _ => some n
  | _, some x =>
    if x.isFinite ∧ x.numerator % x.denominator = 0 then some x.truncated else Option.none
  | _, _ => Option.none

/-- The integer that is stored in a number of bits, with or without a sign. No others than machine
integers are known. -/
def wrap (bits signed : Value) (n : Int) : Except Failure Int :=
  match bits.equalInteger?, signed.equalInteger? with
  | some b, some s =>
    if b.toNat ∈ machineBits ∧ (s = 0 ∨ s = 1) then .ok (Integer.wrap b.toNat (s = 1) n)
    else unknown
  | _, _ => unknown
where
  /-- The failure for bits and a sign that are not known. -/
  unknown : Except Failure Int := do
    throw (.key ("(" ++ (← bits.quoted) ++ ", " ++ (← signed.quoted) ++ ")"))

end Value

end UnitText
