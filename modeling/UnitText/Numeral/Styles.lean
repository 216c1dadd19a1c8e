/-!
# Number styles

What a number may be written with. A style allows one thing; styles are combined freely.

## Main definitions

- `Styles` — a set of styles
- `Styles.named?` — the sets of styles that have a name
-/

namespace UnitText

/-- A set of number styles. -/
structure Styles where
  leadingWhite : Bool := false
  trailingWhite : Bool := false
  leadingSign : Bool := false
  decimalPoint : Bool := false
  /-- Commas between groups of three digits. -/
  thousands : Bool := false
  exponent : Bool := false
  hexLiteral : Bool := false
  binaryLiteral : Bool := false
  octalLiteral : Bool := false
deriving DecidableEq

namespace Styles

/-- The styles of one set or the other. -/
def union (s t : Styles) : Styles where
  leadingWhite := s.leadingWhite || t.leadingWhite
  trailingWhite := s.trailingWhite || t.trailingWhite
  leadingSign := s.leadingSign || t.leadingSign
  decimalPoint := s.decimalPoint || t.decimalPoint
  thousands := s.thousands || t.thousands
  exponent := s.exponent || t.exponent
  hexLiteral := s.hexLiteral || t.hexLiteral
  binaryLiteral := s.binaryLiteral || t.binaryLiteral
  octalLiteral := s.octalLiteral || t.octalLiteral

instance : Union Styles := ⟨union⟩

/-- No style. -/
def none : Styles := {}

/-- The styles of integers. -/
def integer : Styles := { leadingWhite := true, trailingWhite := true, leadingSign := true }

/-- The styles of numbers in text for people. -/
def number : Styles := { integer with decimalPoint := true, thousands := true }

/-- The styles of floating-point numbers. -/
def float : Styles := { integer with decimalPoint := true, exponent := true }

/-- White space around a number. -/
def white : Styles := { leadingWhite := true, trailingWhite := true }

/-- The styles of hexadecimal numbers. -/
def hexNumber : Styles := { white with hexLiteral := true }

/-- The styles of binary numbers. -/
def binaryNumber : Styles := { white with binaryLiteral := true }

/-- The styles of octal numbers. -/
def octalNumber : Styles := { white with octalLiteral := true }

/-- All styles. -/
def any : Styles :=
  { number with exponent := true, hexLiteral := true, binaryLiteral := true, octalLiteral := true }

/-- Floating-point numbers whose digits may be grouped. -/
def groupedFloat : Styles := { float with thousands := true }

/-- The set of styles with this name. -/
def named? : String → Option Styles
  | "NONE" => some none
  | "ALLOW_LEADING_WHITE" => some { leadingWhite := true }
  | "ALLOW_TRAILING_WHITE" => some { trailingWhite := true }
  | "ALLOW_LEADING_SIGN" => some { leadingSign := true }
  | "ALLOW_DECIMAL_POINT" => some { decimalPoint := true }
  | "ALLOW_THOUSANDS" => some { thousands := true }
  | "ALLOW_EXPONENT" => some { exponent := true }
  | "ALLOW_HEX_SPECIFIER" => some { hexLiteral := true }
  | "ALLOW_BINARY_SPECIFIER" => some { binaryLiteral := true }
  | "ALLOW_OCTAL_SPECIFIER" => some { octalLiteral := true }
  | "INTEGER" => some integer
  | "NUMBER" => some number
  | "FLOAT" => some float
  | "HEX_NUMBER" => some hexNumber
  | "BINARY_NUMBER" => some binaryNumber
  | "OCTAL_NUMBER" => some octalNumber
  | "ANY" => some any
  | _ => Option.none

end Styles

end UnitText
