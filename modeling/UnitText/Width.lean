import UnitText.Number.Digits

/-!
# Widths of code units

Text is stored in code units of one of three widths. Narrow text holds UTF-8 bytes, the middle
width UTF-16 units, and the widest one code point in each unit.
-/

namespace UnitText

/-- The width of the code units of a text. -/
inductive Width where
  | narrow
  | wide16
  | wide32
deriving DecidableEq

namespace Width

def bits : Width → Nat
  | narrow => 8
  | wide16 => 16
  | wide32 => 32

def name : Width → String
  | narrow => "NARROW"
  | wide16 => "WIDE16"
  | wide32 => "WIDE32"

/-- All widths, in the order of their names. -/
def all : List Width := [narrow, wide16, wide32]

/-- Every unit is below this number. -/
def unitLimit (w : Width) : Nat := 2 ^ w.bits

end Width

end UnitText
