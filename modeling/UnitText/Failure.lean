import UnitText.Failure.Problem
import UnitText.Failure.TypeFault
import UnitText.Failure.ValueFault
import UnitText.Value.Domain

/-!
# Failures

Everything that can go wrong, by its cause, and what is said about it: problems, which are the
caller's, values of a wrong type, values that cannot be taken, limits of numbers and encodings, and
defects.

## Main definitions

- `Failure` — why an operation gives no result
- `Failure.message` — what is said about a failure
- `Report.create` — a report of a problem, made by hand
-/

namespace UnitText

/-- What no caller should be able to bring about. -/
inductive Defect where
  | secondFormatter (kind : Kind) (length : Length)
  | secondRenderer (domain : Domain)
  | noDomain
  /-- A specifier came when a run could take none; `state` names the state of the run. -/
  | unexpectedState (state : String)
  | noCategory
  | messageNotText
deriving DecidableEq

def Defect.message : Defect → String
  | secondFormatter k m =>
    "Duplicate formatter for %" ++ m.text ++ String.singleton k.letter
  | secondRenderer d => "Duplicate renderer for DomainKind." ++ d.name
  | noDomain => "No renderer for None"
  | unexpectedState s => "Unexpected driver state: DriverState." ++ s
  | noCategory => "No error code for exception"
  | messageNotText => "Invalid exception message: must be a string"

/-- The encodings that have no units for some characters. -/
inductive Codec where
  | utf8
  /-- One byte for each character, which has none above `U+00FF`. -/
  | latin1
deriving DecidableEq

/-- A run of characters that an encoding has no units for. -/
structure EncodingFault where
  codec : Codec
  character : CodePoint
  start : Nat
  /-- The index behind the last character of the run. -/
  stop : Nat
deriving DecidableEq

def EncodingFault.message (f : EncodingFault) : String :=
  (match f.codec with
    | .utf8 => "'utf-8'"
    | .latin1 => "'latin-1'") ++
    " codec can't encode " ++
    (if f.stop = f.start + 1 then
      "character '" ++ f.character.escaped ++ "' in position " ++ f.start.repr
    else
      "characters in position " ++ f.start.repr ++ "-" ++ (f.stop - 1).repr) ++
    (match f.codec with
      | .utf8 => ": surrogates not allowed"
      | .latin1 => ": ordinal not in range(256)")

/-- What decimal arithmetic signals when it has no result. -/
inductive Signal where
  | overflow
  | invalidOperation
  | conversionSyntax
deriving DecidableEq

def Signal.message : Signal → String
  | overflow => "[<class 'decimal.Overflow'>]"
  | invalidOperation => "[<class 'decimal.InvalidOperation'>]"
  | conversionSyntax => "[<class 'decimal.ConversionSyntax'>]"

/-- A property of a value that is not there, or cannot be set. -/
inductive PropertyFault where
  | missing (type name : String)
  | ofMembers (name : String)
  | frozen (name : String)
deriving DecidableEq

def PropertyFault.message : PropertyFault → String
  | missing t n => "'" ++ t ++ "' object has no attribute '" ++ n ++ "'"
  | ofMembers n => "<enum 'Enum'> cannot set attribute '" ++ n ++ "'"
  | frozen n => "cannot assign to field '" ++ n ++ "'"

inductive Failure where
  | problem (p : Problem)
  | defect (d : Defect)
  | type (f : TypeFault)
  | value (f : ValueFault)
  | range (f : RangeFault)
  | encoding (f : EncodingFault)
  | signal (s : Signal)
  | property (f : PropertyFault)
  /-- A table has no entry for a key, here quoted. -/
  | key (quoted : String)
  | scalarPart
  | sum (first second : String)
  | demand
deriving DecidableEq

def Failure.message : Failure → String
  | problem p => p.message
  | defect d => d.message
  | type f => f.message
  | value f => f.message
  | range f => f.message
  | encoding f => f.message
  | signal s => s.message
  | property f => f.message
  | key quoted => quoted
  | scalarPart => "invalid index to scalar variable."
  | sum t u =>
    "ufunc 'add' did not contain a loop with signature matching types (dtype('" ++ t ++
      "'), dtype('" ++ u ++ "')) -> None"
  | demand => ""

/-- What the message of a report is made of. -/
inductive MessageSource where
  | absent
  | text (s : String)
  | other
deriving DecidableEq

/-- A report of the category given, or else of the default one; without a message it says what its
category says. -/
def Report.create (default? category? : Option Category) (source : MessageSource)
    (offset : Option Int) : Except Failure Report :=
  match category?.or default? with
  | none => .error (.defect .noCategory)
  | some category =>
    match source with
    | .absent => .ok { category, message := category.text, offset }
    | .text s => .ok { category, message := if s.isEmpty then category.text else s, offset }
    | .other => .error (.defect .messageNotText)

end UnitText
