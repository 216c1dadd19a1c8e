import UnitText.Failure
import UnitText.Number.Double

/-!
# Machine numbers and variables

Numbers may come in a type of fixed size, as the element of an array or in a variable of the C
language. An integer is stored in a fixed number of bits by dropping the bits above them. Read as
signed, the highest bit that is kept counts as negative.

## Main definitions

- `Integer.wrap` — the integer that is stored in a number of bits
- `IntegerType`, `FloatType` — the types of numbers, which are named in messages
- `MachineInteger`, `MachineFloat` — numbers that a type holds
- `ElementType` — the types of the elements of arrays
- `Variable` — a variable with what it holds, and `Variable.stored` what it holds after a store
-/

namespace UnitText

/-- The integer that is stored when `n` is put into `bits` bits. -/
def Integer.wrap (bits : Nat) (signed : Bool) (n : Int) : Int :=
  if signed then Int.bmod n (2 ^ bits) else n % (2 ^ bits : Nat)

/-- The floating-point number nearest to an integer. There is none for an integer beyond them. -/
def Double.ofInteger (n : Int) : Except Failure Double :=
  match ofInt? n with
  | some x => .ok x
  | none => .error (.range .float)

/-! ## Integers -/

/-- The numbers of bits that a machine integer may have. -/
def machineBits : List Nat := [8, 16, 32, 64]

structure IntegerType where
  bits : Nat
  signed : Bool
  bits_mem : bits ∈ machineBits
deriving DecidableEq

namespace IntegerType

/-- The name of the type of the elements of an array. -/
def elementName (t : IntegerType) : String := (if t.signed then "int" else "uint") ++ t.bits.repr

/-- The name of the type of a variable. -/
def variableName (t : IntegerType) : String :=
  (if t.signed then "c_" else "c_u") ++
    (match t.bits with
      | 8 => "byte"
      | 16 => "short"
      | 32 => "int"
      | _ => "long")

/-- The types of the C language by all their names. Pointers and long integers have 64 bits, so
several names stand for one type. -/
def ofVariableName? : String → Option IntegerType
  | "c_byte" => some ⟨8, true, by decide⟩
  | "c_ubyte" => some ⟨8, false, by decide⟩
  | "c_short" => some ⟨16, true, by decide⟩
  | "c_ushort" => some ⟨16, false, by decide⟩
  | "c_int" => some ⟨32, true, by decide⟩
  | "c_uint" => some ⟨32, false, by decide⟩
  | "c_long" | "c_longlong" | "c_ssize_t" => some ⟨64, true, by decide⟩
  | "c_ulong" | "c_ulonglong" | "c_size_t" => some ⟨64, false, by decide⟩
  | _ => none

/-- The types of array elements by their names. -/
def ofElementName? : String → Option IntegerType
  | "int8" => some ⟨8, true, by decide⟩
  | "int16" => some ⟨16, true, by decide⟩
  | "int32" => some ⟨32, true, by decide⟩
  | "int64" => some ⟨64, true, by decide⟩
  | "uint8" => some ⟨8, false, by decide⟩
  | "uint16" => some ⟨16, false, by decide⟩
  | "uint32" => some ⟨32, false, by decide⟩
  | "uint64" => some ⟨64, false, by decide⟩
  | _ => none

/-- The integer that is held after `n` was stored. -/
def hold (t : IntegerType) (n : Int) : Int := Integer.wrap t.bits t.signed n

end IntegerType

/-- The type of the code units of a width. -/
def Width.unitType (w : Width) : IntegerType := ⟨w.bits, false, by cases w <;> decide⟩

/-- An integer of a machine type. -/
structure MachineInteger where
  type : IntegerType
  value : Int
  isStored : ∃ n, type.hold n = value
deriving DecidableEq

/-- What is held of an integer after it was stored. -/
def IntegerType.store (t : IntegerType) (n : Int) : MachineInteger := ⟨t, t.hold n, n, rfl⟩

/-! ## Floating-point numbers -/

structure FloatType where
  bits : Nat
deriving DecidableEq

namespace FloatType

/-- The name of the type of the elements of an array. -/
def elementName (t : FloatType) : String := "float" ++ t.bits.repr

/-- The name of the type of a variable. -/
def variableName (t : FloatType) : String :=
  match t.bits with
  | 32 => "c_float"
  | 64 => "c_double"
  | _ => "c_longdouble"

def ofVariableName? : String → Option FloatType
  | "c_float" => some ⟨32⟩
  | "c_double" => some ⟨64⟩
  | "c_longdouble" => some ⟨128⟩
  | _ => none

def ofElementName? : String → Option FloatType
  | "float16" => some ⟨16⟩
  | "float32" => some ⟨32⟩
  | "float64" => some ⟨64⟩
  | _ => none

/-- The binary format of the type, if it is narrower than double precision. -/
def format? (t : FloatType) : Option BinaryFormat :=
  match t.bits with
  | 16 => some .half
  | 32 => some .single
  | _ => none

/-- The number that is held after `x` was stored. Arithmetic of the processor, which makes NaNs
quiet, stores numbers of 32 and of 128 bits. -/
def hold (t : FloatType) (x : Double) : Double :=
  match t.bits with
  | 16 => x.narrowed .half
  | 32 => x.quieted.narrowed .single
  | 64 => x
  | _ => x.quieted

end FloatType

/-- A floating-point number of a machine type. -/
structure MachineFloat where
  type : FloatType
  value : Double
  isStored : ∃ x, type.hold x = value
deriving DecidableEq

/-- What is held of a floating-point number after it was stored. -/
def FloatType.store (t : FloatType) (x : Double) : MachineFloat := ⟨t, t.hold x, x, rfl⟩

/-! ## Elements of arrays -/

inductive ElementType where
  | integer (type : IntegerType)
  | float (type : FloatType)
  | boolean
deriving DecidableEq

namespace ElementType

def name : ElementType → String
  | integer t => t.elementName
  | float t => t.elementName
  | boolean => "bool"

/-- The element that a number is converted to. Integers keep the bits that they have room for. -/
def convert (t : ElementType) (n : Nat) : Int :=
  match t with
  | integer t => t.hold n
  | float _ => n
  | boolean => if n = 0 then 0 else 1

/-- The element that holds a number. Integers hold no number that would lose bits. -/
def hold (t : ElementType) (n : Nat) : Except Failure Int :=
  match t with
  | integer _ => if t.convert n = n then .ok n else .error (.range (.unit n t.name))
  | _ => .ok (t.convert n)

end ElementType

/-! ## Variables -/

/-- A variable of the C language, with what it holds. -/
inductive Variable where
  | integer (x : MachineInteger)
  | float (x : MachineFloat)
  /-- A character of one byte. -/
  | byte (b : Fin 256)
  | character (c : CodePoint)
  | pointer (n : Fin (2 ^ 64))
deriving DecidableEq

namespace Variable

def typeName : Variable → String
  | integer x => x.type.variableName
  | float x => x.type.variableName
  | byte _ => "c_char"
  | character _ => "c_wchar"
  | pointer _ => "c_void_p"

/-- The variable after a count was stored in it. Integers and pointers keep the bits that they have
room for; a character of one byte takes no count that is larger, and other characters take none. -/
def stored (count : Nat) : Variable → Except Failure Variable
  | integer x => .ok (integer (x.type.store count))
  | float x => return float (x.type.store (← Double.ofInteger count))
  | byte _ => if h : count < 256 then .ok (byte ⟨count, h⟩) else .error (.type .notByteChar)
  | character _ => .error (.type .notWideChar)
  | pointer _ => .ok (pointer (Fin.ofNat (2 ^ 64) count))

end Variable

end UnitText
