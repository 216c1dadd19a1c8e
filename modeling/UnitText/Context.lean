import UnitText.CodePoint

/-!
# Showing a place in a text

The line of a text in which something was found, a marker under the place, and a message under the
marker.

## Main definitions

- `contextLines` — the three lines
-/

namespace UnitText

/-- An index into a text of `length` characters, where a negative one counts from the end. -/
def clampedIndex (length : Nat) (i : Int) : Nat :=
  if 0 ≤ i then min i.toNat length else (length + i).toNat

def lineFeed : CodePoint := '\n'

/-- The index behind the last line end before `stop`. -/
def lineStart (cs : Chars) (stop : Nat) : Nat :=
  let before := cs.take stop
  before.length - (before.reverse.takeWhile (· ≠ lineFeed)).length

/-- The index of the first line end from `start` on, or of the end of the text. -/
def lineEnd (cs : Chars) (start : Nat) : Nat :=
  start + ((cs.drop start).takeWhile (· ≠ lineFeed)).length

/-- The line that holds the place, a marker under it, and the message. -/
def contextLines (cs : Chars) (place : Int) (message : Chars) : List Chars :=
  let index := clampedIndex cs.length place
  let start := lineStart cs index
  let stop := lineEnd cs index
  let space := List.replicate (place - start + 1).toNat (CodePoint.ofChar ' ')
  let margin := Chars.ofString " :: " ++ space
  [Chars.ofString " >>  " ++ (cs.take stop).drop start, margin ++ [CodePoint.ofChar '^'],
    margin ++ message]

/-- Lines as text, each with a line end behind it. -/
def unlines (lines : List Chars) : Chars := lines.flatMap (· ++ [lineFeed])

end UnitText
