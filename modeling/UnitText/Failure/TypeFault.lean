import UnitText.Number.Digits
import UnitText.Width

/-!
# Faults of type

An operation was handed a value of a type that it is not for. Types are kept by their names.

## Main definitions

- `TypeFault` — what the operation cannot do with the type
- `TypeFault.message` — what is said about it
-/

namespace UnitText

/-- A value of a type that the operation is not for. Types are kept by their names. -/
inductive TypeFault where
  | notText (type : String)
  | mixedWidths (first second : Width)
  | notParsed (type : String)
  | notIterable (type : String)
  | notSized (type : String)
  | notSliced (type : String)
  | notDuration (type : String)
  | noLayout (type : String)
  | notInteger (type : String)
  | notFloat (type : String)
  | notReal (type : String)
  | arrayNotNumber
  | noMagnitude (type : String)
  | notCharacter (type : String)
  | notJoined (index : Nat) (type : String)
  | notFilledBehind (type : String)
  | notFilledBefore (type : String)
  | flagNotFilled (type : String)
  | notOrdered (first second : String)
  | notByteChar
  | notWideChar
  | notSearched
  | missingPart (name : String) (number : Nat)
  /-- A name, here quoted, that an enumeration gives a second time, and its first value. -/
  | namedTwice (quoted : String) (value : Int)
deriving DecidableEq

def TypeFault.message : TypeFault → String
  | notText t => "Not a text value: " ++ t
  | mixedWidths v w =>
    "Cannot mix texts of different widths: " ++
      ", ".intercalate ((Width.all.filter fun u => u = v ∨ u = w).map Width.name)
  | notParsed t => "Cannot parse numbers of type " ++ t
  | notIterable t => "'" ++ t ++ "' object is not iterable"
  | notSized t => "object of type '" ++ t ++ "' has no len()"
  | notSliced t => "'" ++ t ++ "' object is not subscriptable"
  | notDuration t =>
    "unsupported operand type(s) for //: '" ++ t ++ "' and 'datetime.timedelta'"
  | noLayout t => "unsupported format string passed to " ++ t ++ ".__format__"
  | notInteger t =>
    "int() argument must be a string, a bytes-like object or a real number, not '" ++ t ++ "'"
  | notFloat t => "float() argument must be a string or a real number, not '" ++ t ++ "'"
  | notReal t => "must be real number, not " ++ t
  | arrayNotNumber => "only 0-dimensional arrays can be converted to Python scalars"
  | noMagnitude t => "bad operand type for abs(): '" ++ t ++ "'"
  | notCharacter t => "ord() expected string of length 1, but " ++ t ++ " found"
  | notJoined i t => "sequence item " ++ i.repr ++ ": expected str instance, " ++ t ++ " found"
  | notFilledBehind t => "can't concat str to " ++ t
  | notFilledBefore t => "can only concatenate str (not \"" ++ t ++ "\") to str"
  | flagNotFilled t => "unsupported operand type(s) for +: '" ++ t ++ "' and 'str'"
  | notOrdered t u => "'<' not supported between instances of '" ++ t ++ "' and '" ++ u ++ "'"
  | notByteChar => "one character bytes, bytearray or integer expected"
  | notWideChar => "unicode string expected instead of int instance"
  | notSearched => "argument should be integer or bytes-like object, not 'str'"
  | missingPart name n =>
    "function missing required argument '" ++ name ++ "' (pos " ++ n.repr ++ ")"
  | namedTwice quoted v => quoted ++ " already defined as " ++ Integer.text v

end UnitText
