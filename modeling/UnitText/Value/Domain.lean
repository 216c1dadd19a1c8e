/-!
# Domains

A value that is neither a number nor a text carries a notation of its own, which its *domain*
decides.
-/

namespace UnitText

/-- The notations of values other than plain numbers and texts. -/
inductive Domain where
  | enumeration
  | dateTime
  | duration
  /-- A decimal number, written without an exponent. -/
  | fixedPoint
  | currency
  /-- Any other value, which brings its own text. -/
  | object
deriving DecidableEq

namespace Domain

def name : Domain → String
  | enumeration => "ENUM"
  | dateTime => "DATE_TIME"
  | duration => "DURATION"
  | fixedPoint => "FIXED_POINT"
  | currency => "CURRENCY"
  | object => "OBJECT"

def number : Domain → Nat
  | enumeration => 1
  | dateTime => 2
  | duration => 3
  | fixedPoint => 4
  | currency => 5
  | object => 6

def description : Domain → String
  | enumeration => "enum"
  | dateTime => "date_time"
  | duration => "duration"
  | fixedPoint => "fixed_point"
  | currency => "currency"
  | object => "object"

end Domain

end UnitText
