import UnitText.Text.Basic

/-!
# Splitting

A text is split at separator units. Every separator ends an item, so separators side by side have
an empty item between them, unless empty items are left out. A limit on the number of items leaves
the rest of the text unsplit in the last one.

## Main definitions

- `splitUnits` — splits a sequence of units
- `Text.split` — splits a text
-/

namespace UnitText

/-- The units that separate items when no separators are given: tab, line feed, vertical tab, form
feed, carriage return and space. -/
def defaultSeparators : List Nat := [9, 10, 11, 12, 13, 32]

/-- The items that end a split: what is left, unless it is empty and empty items are left out. -/
def lastItem (removeEmpty : Bool) (rest : List Nat) : List (List Nat) :=
  if removeEmpty ∧ rest = [] then [] else [rest]

/-- The items of the units behind those in `seen`, which were read since the last separator and come
last first. At most `limit` items are split off before the rest. -/
def splitFrom (isSeparator : Nat → Bool) (removeEmpty : Bool) (limit : Option Nat)
    (seen : List Nat) : List Nat → List (List Nat)
  | [] => lastItem removeEmpty seen.reverse
  | u :: rest =>
    if limit = some 0 then
      lastItem removeEmpty (seen.reverse ++ u :: rest)
    else if isSeparator u then
      if removeEmpty ∧ seen = [] then
        splitFrom isSeparator removeEmpty limit [] rest
      else
        seen.reverse :: splitFrom isSeparator removeEmpty (limit.map (· - 1)) [] rest
    else
      splitFrom isSeparator removeEmpty limit (u :: seen) rest

/-- The items of a sequence of units, at most `limit` of them split off before the rest. -/
def splitUnits (isSeparator : Nat → Bool) (removeEmpty : Bool) (limit : Option Nat)
    (units : List Nat) : List (List Nat) :=
  splitFrom isSeparator removeEmpty limit [] units

namespace Text

/-- The items of a text, split at the separators given or else at the default ones. At most `count`
items are returned. -/
def split (t : Text) (separators : List Nat) (count : Option Nat) (removeEmpty : Bool) :
    Except Failure (List Text) := do
  if count = some 0 then
    return []
  if count = some 1 then
    return [t]
  let separators := if separators.isEmpty then defaultSeparators else separators
  let _ ← separators.mapM readNumber
  let _ ← t.unitString
  let items := splitUnits separators.contains removeEmpty (count.map (· - 1)) t.units
  return items.map t.container.pack

end Text

end UnitText
