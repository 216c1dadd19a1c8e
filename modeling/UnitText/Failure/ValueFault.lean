import UnitText.Quote
import UnitText.Width

/-!
# Faults of value

An operation was handed a value of a right type that it cannot take, or a number that is too large
for what has to hold it.

## Main definitions

- `ValueFault`, `RangeFault` — what is wrong with the value
- `ValueFault.message`, `RangeFault.message` — what is said about it
-/

namespace UnitText

/-- A value of a right type that the operation cannot take. -/
inductive ValueFault where
  | unknownKind (text : Chars)
  | unknownLength (text : Chars)
  | severalUnits (text : Chars) (width : Width)
  | unitOutside (unit : Int) (width : Width)
  /-- A value, here quoted, that is no single unit. -/
  | notUnit (quoted : String)
  | unitNotCharacter
  | numberNotCharacter
  | tooLongToWrite
  | tooLongToRead (digits : Nat)
  /-- A text, here quoted, that is no integer. -/
  | notIntegerText (quoted : String)
  /-- A text, here quoted, that is no floating-point number. -/
  | notFloatText (quoted : String)
  | nanNotInteger
  | decimalNaNNotInteger
  | signalingNaN
  | decimalFormat
  | decimalPrecision
  | floatPrecision
  | floatFormat
  | unknownLayout (letter : Char) (type : String)
  | emptyTruth
  | severalTruths
  | notMember (value : Int) (enumeration : String)
  | yearOutside (year : Int)
  | monthOutside
  | dayOutside
  | timeOutside (part : String) (limit : Nat)
  /-- An offset of a clock, here quoted, of a day or more. -/
  | offsetOutside (quoted : String)
deriving DecidableEq

def ValueFault.message : ValueFault → String
  | unknownKind t => t.quoted ++ " is not a valid ConversionKind"
  | unknownLength t => t.quoted ++ " is not a valid LengthModifier"
  | severalUnits t w => t.quoted ++ " takes more than one " ++ w.bits.repr ++ "-bit code unit"
  | unitOutside u w =>
    "Code unit " ++ (if u < 0 then "-0x" else "0x") ++ hexText 0 u.natAbs ++
      " does not fit in " ++ w.bits.repr ++ " bits"
  | notUnit quoted => "Not a single code unit: " ++ quoted
  | unitNotCharacter => "Code unit out of the valid range"
  | numberNotCharacter => "chr() arg not in range(0x110000)"
  | tooLongToWrite =>
    "Exceeds the limit (4300 digits) for integer string conversion; " ++
      "use sys.set_int_max_str_digits() to increase the limit"
  | tooLongToRead n =>
    "Exceeds the limit (4300 digits) for integer string conversion: value has " ++ n.repr ++
      " digits; use sys.set_int_max_str_digits() to increase the limit"
  | notIntegerText quoted => "invalid literal for int() with base 10: " ++ quoted
  | notFloatText quoted => "could not convert string to float: " ++ quoted
  | nanNotInteger => "cannot convert float NaN to integer"
  | decimalNaNNotInteger => "cannot convert NaN to integer"
  | signalingNaN => "cannot convert signaling NaN to float"
  | decimalFormat => "invalid format string"
  | decimalPrecision => "format specification exceeds internal limits of _decimal"
  | floatPrecision => "precision too big"
  | floatFormat => "Too many decimal digits in format string"
  | unknownLayout c t =>
    "Unknown format code '" ++ String.singleton c ++ "' for object of type '" ++ t ++ "'"
  | emptyTruth =>
    "The truth value of an empty array is ambiguous. " ++
      "Use `array.size > 0` to check that an array is not empty."
  | severalTruths =>
    "The truth value of an array with more than one element is ambiguous. " ++
      "Use a.any() or a.all()"
  | notMember v e => Integer.text v ++ " is not a valid " ++ e
  | yearOutside y => "year " ++ Integer.text y ++ " is out of range"
  | monthOutside => "month must be in 1..12"
  | dayOutside => "day is out of range for month"
  | timeOutside part limit => part ++ " must be in 0.." ++ limit.repr
  | offsetOutside quoted =>
    "offset must be a timedelta strictly between -timedelta(hours=24) and " ++
      "timedelta(hours=24), not " ++ quoted ++ "."

inductive RangeFault where
  /-- A code unit of `2 ^ 31` or more, used as a character. -/
  | character
  /-- A run of padding of `2 ^ 63` or more. -/
  | padding
  /-- A number of digits of `2 ^ 63` or more. -/
  | digits
  | float
  | unit (value : Nat) (type : String)
  | infinityNotInteger
  | decimalInfinityNotInteger
  | days (n : Int)
  /-- A duration of `2 ^ 31` days or more. -/
  | farDays
  /-- A part of a date of `2 ^ 31` or more. -/
  | partAbove
  /-- A part of a date below `-2 ^ 31`. -/
  | partBelow
  | farPart
deriving DecidableEq

def RangeFault.message : RangeFault → String
  | character => "Python int too large to convert to C int"
  | padding => "cannot fit 'int' into an index-sized integer"
  | digits => "Python int too large to convert to C ssize_t"
  | float => "int too large to convert to float"
  | unit n t => "Python integer " ++ n.repr ++ " out of bounds for " ++ t
  | infinityNotInteger => "cannot convert float infinity to integer"
  | decimalInfinityNotInteger => "cannot convert Infinity to integer"
  | days n => "days=" ++ Integer.text n ++ "; must have magnitude <= 999999999"
  | farDays => "Python int too large to convert to C int"
  | partAbove => "signed integer is greater than maximum"
  | partBelow => "signed integer is less than minimum"
  | farPart => "Python int too large to convert to C long"

end UnitText
