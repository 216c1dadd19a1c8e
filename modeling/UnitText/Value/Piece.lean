import UnitText.Value.Number
import UnitText.Value.Units

/-!
# Pieces of output

Output is made of pieces, which are joined at its end. A piece is made of characters, unless a value
was handed in as a text that is none; such a value is passed on, and cannot be joined.

## Main definitions

- `Piece` — a piece of output
- `Piece.length`, `Piece.isEmpty` — how many code units it takes, and whether it is left out
- `Piece.join` — the characters of several pieces
-/

namespace UnitText

inductive Piece where
  | chars (cs : Chars)
  /-- A value that is no string. -/
  | value (v : Value)
deriving DecidableEq

namespace Piece

def ofValue (v : Value) : Piece :=
  match v.chars? with
  | some cs => chars cs
  | none => value v

def toValue : Piece → Value
  | chars cs => .ofChars cs
  | value v => v

/-- The number of code units that a piece takes. -/
def length (w : Width) : Piece → Except Failure Nat
  | chars cs => .ok (w.length cs)
  | value v => v.unitCount w

/-- Whether a piece is left out of the output. -/
def isEmpty : Piece → Except Failure Bool
  | chars cs => .ok cs.isEmpty
  | value v => return !(← v.isTrue)

/-- The characters of pieces, the first of which has this index. -/
def joinFrom (index : Nat) : List Piece → Except Failure Chars
  | [] => .ok []
  | chars cs :: rest => return cs ++ (← joinFrom (index + 1) rest)
  | value v :: _ => .error (.type (.notJoined index v.qualifiedTypeName))

/-- The characters of pieces, one after the other. -/
def join (pieces : List Piece) : Except Failure Chars := joinFrom 0 pieces

@[simp] theorem ofValue_ofChars (cs : Chars) : ofValue (.ofChars cs) = chars cs := by
  simp [ofValue]

end Piece

end UnitText
