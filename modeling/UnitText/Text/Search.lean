import UnitText.Text.Case

/-!
# Comparing and searching

Texts of one width are compared and searched unit by unit, whatever their containers are. Two texts
of different widths cannot be put side by side.

## Main definitions

- `Text.compare`, `Text.compareAt` — the order of two texts, or of parts of them
- `Text.contains`, `Text.startsWith`, `Text.endsWith`
-/

namespace UnitText

/-- The order of two sequences of code points: the first difference decides, and a sequence comes
after every sequence it begins with. -/
def Chars.order : Chars → Chars → Ordering
  | [], [] => .eq
  | [], _ :: _ => .lt
  | _ :: _, [] => .gt
  | c :: cs, d :: ds => if c.val < d.val then .lt else if d.val < c.val then .gt else order cs ds

/-- Whether `part` occurs in a sequence of code points. -/
def Chars.occursIn (part : Chars) : Chars → Bool
  | [] => part.isEmpty
  | c :: cs => part.isPrefixOf (c :: cs) || occursIn part cs

namespace Text

/-- The views of two texts of one width. -/
def unitStrings (a b : Text) : Except Failure (Chars × Chars) :=
  if a.width = b.width then
    return (← a.unitString, ← b.unitString)
  else
    .error (.type (.mixedWidths a.width b.width))

/-- The text, with capital ASCII letters made small if case is ignored. -/
def folded (ignoreCase : Bool) (t : Text) : Text := if ignoreCase then t.toLower else t

def compare (ignoreCase : Bool) (a b : Text) : Except Failure Ordering := do
  let (s, t) ← unitStrings (a.folded ignoreCase) (b.folded ignoreCase)
  return s.order t

/-- The part of `s` that begins at `index` and holds at most `length` units. An index at the end
gives the empty part. -/
def slice (s : Chars) (index length : Int) : Except Failure Chars :=
  if length < 0 then
    .error (.problem (.negativeLength length))
  else if index < 0 ∨ s.length < index then
    .error (.problem (.indexOutside index s.length))
  else
    .ok ((s.drop index.toNat).take length.toNat)

/-- The order of the parts of two texts that begin at the indices given and hold at most `length`
units. -/
def compareAt (ignoreCase : Bool) (a : Text) (indexA : Int) (b : Text) (indexB length : Int) :
    Except Failure Ordering := do
  let (s, t) ← unitStrings (a.folded ignoreCase) (b.folded ignoreCase)
  let s ← slice s indexA length
  let t ← slice t indexB length
  return s.order t

def contains (t part : Text) : Except Failure Bool := do
  let (s, p) ← unitStrings t part
  return p.occursIn s

def startsWith (ignoreCase : Bool) (t start : Text) : Except Failure Bool := do
  let (s, p) ← unitStrings (t.folded ignoreCase) (start.folded ignoreCase)
  return p.isPrefixOf s

def endsWith (ignoreCase : Bool) (t stop : Text) : Except Failure Bool := do
  let (s, p) ← unitStrings (t.folded ignoreCase) (stop.folded ignoreCase)
  return p.isSuffixOf s

end Text

end UnitText
