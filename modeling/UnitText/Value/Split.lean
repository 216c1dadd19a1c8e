import UnitText.Text.Split
import UnitText.Value.Units

/-!
# Splitting values

The separators of a split are given one by one, or as a value that holds them.

## Main definitions

- `Separators` — separators as they are given
- `Value.split` — splits the text that a value is
-/

namespace UnitText

inductive Separators where
  /-- Given one by one. -/
  | list (items : List Value)
  /-- Held by a value. -/
  | each (v : Value)
deriving DecidableEq

namespace Separators

def items : Separators → Except Failure (List Value)
  | list items => .ok items
  | each v => v.items

/-- The separators as units of a width. -/
def units (w : Width) (s : Separators) : Except Failure (List Nat) := do
  (← s.items).mapM (Value.codeUnit w)

end Separators

/-- The items of a text, at most `count` of them. A count of zero or one needs no text: there are no
items, or the value is the only one. -/
def Value.split (v : Value) (separators : Separators) (count : Option Int) (removeEmpty : Bool) :
    Except Failure (List Value) := do
  match count with
  | some n =>
    if n < 0 then throw (.problem (.negativeCount n))
    if n = 0 then return []
    if n = 1 then return [v]
  | Option.none => pure ()
  let t ← v.asText
  let units ← separators.units t.width
  let items ← t.split units (count.map Int.toNat) removeEmpty
  return items.map .text

end UnitText
