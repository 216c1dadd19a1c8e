/-!
# Families

Conversions look at the *family* of an argument, not at the type of the value that it was made from.
-/

namespace UnitText

/-- The families of arguments. -/
inductive Family where
  | integer
  | float
  | boolean
  | character
  | text
  | address
  | slot
  | other
deriving DecidableEq

namespace Family

def name : Family → String
  | integer => "INTEGER"
  | float => "FLOAT"
  | boolean => "BOOLEAN"
  | character => "CHARACTER"
  | text => "TEXT"
  | address => "ADDRESS"
  | slot => "COUNT_SLOT"
  | other => "OPAQUE"

def number : Family → Nat
  | integer => 1
  | float => 2
  | boolean => 3
  | character => 4
  | text => 5
  | address => 6
  | slot => 7
  | other => 8

def description : Family → String
  | integer => "integer"
  | float => "float"
  | boolean => "boolean"
  | character => "character"
  | text => "text"
  | address => "address"
  | slot => "count_slot"
  | other => "opaque"

def all : List Family := [integer, float, boolean, character, text, address, slot, other]

def named? (s : String) : Option Family := all.find? (·.name = s)

end Family

end UnitText
