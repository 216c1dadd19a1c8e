import UnitText.Argument.Suits
import UnitText.Value.Piece

/-!
# Fields

A field is a conversion specifier whose width and precision are known, together with what its output
depends on besides its argument. Output is padded to the width of the field, which counts code units
of the template.

## Main definitions

- `Field` and `Field.create`
- `Field.padText`, `Field.padNumber` — the two ways to fill a field
- `Field.padPiece`, `Field.writable` — pieces of output that fill a field, and that fit the template
-/

namespace UnitText

/-- A conversion specifier that is ready to be applied. -/
structure Field where
  spec : Specifier
  /-- The flags, to which a negative width adds one. -/
  flags : Flags
  /-- The minimum width, zero if none is given. -/
  width : Nat
  precision : Option Nat
  /-- The width of the code units of the template. -/
  charWidth : Width := .wide32
  /-- The number of code units that were output before. -/
  written : Nat := 0
deriving DecidableEq

namespace Field

/-- The field for a specifier, with the width and the precision given. A negative width means its
magnitude and filling on the right; a negative precision means none. -/
def create (s : Specifier) (width precision : Option Int) (charWidth : Width) (written : Nat) :
    Field where
  spec := s
  flags := match width with
    | some n => if n < 0 then { s.flags with left := true } else s.flags
    | none => s.flags
  width := (width.map Int.natAbs).getD 0
  precision := precision.bind fun n => if n < 0 then none else some n.toNat
  charWidth := charWidth
  written := written

/-- Runs of characters cannot be this long. -/
def runLimit : Nat := 2 ^ 63

/-- A run of one character, which fills a field. -/
def filling (c : Char) (n : Nat) : Except Failure Chars :=
  if runLimit ≤ n then .error (.range .padding) else .ok (List.replicate n (CodePoint.ofChar c))

def missing (f : Field) (cs : Chars) : Nat := f.width - f.charWidth.length cs

/-- The text, filled with spaces to the width of the field. -/
def padText (f : Field) (cs : Chars) : Except Failure Chars := do
  let fill ← filling ' ' (f.missing cs)
  return if f.flags.left then cs ++ fill else fill ++ cs

/-- Why a value that is no string cannot be filled with a number of spaces. -/
def fillFailure (f : Field) (fill : Nat) (v : Value) : Failure :=
  match v.elementType?, v with
  | some type, _ =>
    let spaces := "<U" ++ fill.repr
    if f.flags.left then .sum type.name spaces else .sum spaces type.name
  | none, .member m =>
    .type (if f.flags.left then .flagNotFilled m.enumeration.name
      else .notFilledBefore m.enumeration.name)
  | none, v =>
    .type (if f.flags.left then .notFilledBehind v.qualifiedTypeName
      else .notFilledBefore v.qualifiedTypeName)

/-- A piece of output, filled with spaces to the width of the field. A value that is no string has
to fill the field by itself. -/
def padPiece (f : Field) : Piece → Except Failure Piece
  | .chars cs => return .chars (← f.padText cs)
  | .value v => do
    let fill := f.width - (← v.unitCount f.charWidth)
    if runLimit ≤ fill then throw (.range .padding)
    if fill ≠ 0 then throw (f.fillFailure fill v)
    return .value v

/-- A number, filled to the width of the field: with spaces around it, or with zeros between the
sign and mark it begins with and its digits. -/
def padNumber (f : Field) (start digits : Chars) (zeros : Bool) : Except Failure Chars := do
  let zeros := zeros && !f.flags.left
  let fill ← filling (if zeros then '0' else ' ') (f.missing (start ++ digits))
  return if f.flags.left then start ++ digits ++ fill
    else if zeros then start ++ fill ++ digits
    else fill ++ start ++ digits

def signChars (f : Field) (negative signed : Bool) : Chars :=
  if negative then ['-']
  else if !signed then []
  else if f.flags.sign then ['+']
  else if f.flags.space then [' ']
  else []

/-- The text, if the code units of the template can hold it. -/
def writableText (f : Field) (cs : Chars) : Except Failure Chars :=
  match f.charWidth.fault? cs with
  | none => .ok cs
  | some fault => .error (.problem (.notWritable f.spec fault.character f.charWidth))

/-- The piece of output, if the code units of the template can hold it. -/
def writable (f : Field) : Piece → Except Failure Piece
  | .chars cs => return .chars (← f.writableText cs)
  | .value v => do
    let _ ← v.unitCount f.charWidth
    return .value v

/-- The longest beginning of a piece that takes at most as many units as the precision says. -/
def truncated (f : Field) (p : Piece) : Except Failure Piece :=
  match f.precision, p with
  | none, p => .ok p
  | some n, .chars cs => return .chars (← f.charWidth.truncate n cs)
  | some n, .value v => return .value (← v.truncate f.charWidth n)

end Field

end UnitText
