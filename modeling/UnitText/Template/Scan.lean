import UnitText.Failure
import UnitText.Numeral.Digits

/-!
# Scanning templates

A template is literal text, percent signs written twice, and conversion specifiers. It is scanned
from left to right, each piece as long as possible. The first percent sign that begins neither an
escape nor a specifier ends the scan; the tokens before it stand, except literal text right before
it.

## Main definitions

- `SpecifierSource` — the parts of a specifier as they are written
- `SpecifierSource.scan?` — the specifier at the beginning of a text, and what follows it
- `Token`, `Scan` — what a scan gives
- `Scan.ofChars` — the scan of a template

## Design notes

`Scan.fromOffset` recurses on the text. Behind a specifier it skips as many characters as belong to
it, so that no other measure is needed.
-/

namespace UnitText

/-- A width or a precision as it is written. -/
inductive CountSource where
  | digits (ds : List Nat)
  | star
deriving DecidableEq

namespace CountSource

/-- The count at the beginning of a text, if there is one, and the text behind it. -/
def scan (cs : Chars) : Option CountSource × Chars :=
  match cs with
  | [] => (none, [])
  | c :: rest =>
    if c = '*' then
      (some .star, rest)
    else
      let r := digitRun cs
      if r.1 = [] then (none, cs) else (some (.digits r.1), r.2)

/-- The count that is written. Numbers of too many digits are not read. -/
def toCount : CountSource → Except Failure Count
  | digits ds =>
    if Integer.digitLimit < ds.length then .error (.value (.tooLongToRead ds.length))
    else .ok (.number (digitsValue 10 ds))
  | star => .ok .star

end CountSource

/-- The flags at the beginning of a text, added to those read before, and the text behind them. -/
def Flags.scan (f : Flags) : Chars → Flags × Chars
  | [] => (f, [])
  | c :: cs =>
    match f.insert? c with
    | some g => scan g cs
    | none => (f, c :: cs)

/-- The precision at the beginning of a text, if there is one, and the text behind it. A point alone
is a precision of zero. -/
def CountSource.scanPrecision (cs : Chars) : Option CountSource × Chars :=
  match cs with
  | [] => (none, [])
  | c :: rest =>
    if c = '.' then
      let r := scan rest
      (some (r.1.getD (.digits [0])), r.2)
    else
      (none, cs)

/-- The length modifier at the beginning of a text, as long as possible, and the text behind it. -/
def Length.scan (cs : Chars) : Length × Chars :=
  match cs with
  | [] => (.none, [])
  | c :: rest =>
    if c = 'h' then
      match rest with
      | d :: rest' => if d = 'h' then (.hh, rest') else (.h, rest)
      | [] => (.h, [])
    else if c = 'l' then
      match rest with
      | d :: rest' => if d = 'l' then (.ll, rest') else (.l, rest)
      | [] => (.l, [])
    else if c = 'j' then (.j, rest)
    else if c = 'z' then (.z, rest)
    else if c = 't' then (.t, rest)
    else if c = 'L' then (.bigL, rest)
    else (.none, cs)

/-- The parts of a specifier as they are written. -/
structure SpecifierSource where
  flags : Flags
  width : Option CountSource
  precision : Option CountSource
  length : Length
  kind : Kind
deriving DecidableEq

namespace SpecifierSource

/-- The specifier whose percent sign stands right before the text, and the text behind it. -/
def scan? (cs : Chars) : Option (SpecifierSource × Chars) :=
  let flags := Flags.scan {} cs
  let width := CountSource.scan flags.2
  let precision := CountSource.scanPrecision width.2
  let length := Length.scan precision.2
  match length.2 with
  | [] => none
  | c :: rest =>
    (Kind.ofLetter? c).map fun kind =>
      ({ flags := flags.1, width := width.1, precision := precision.1, length := length.1, kind },
        rest)

/-- A width or precision that is written, if one is. -/
def toCount? : Option CountSource → Except Failure (Option Count)
  | none => .ok none
  | some c => return some (← c.toCount)

/-- The specifier that is written, with the offset of its percent sign. -/
def toSpecifier (s : SpecifierSource) (offset : Nat) : Except Failure Specifier := do
  let width ← toCount? s.width
  let precision ← toCount? s.precision
  return {
    kind := s.kind, flags := s.flags, width, precision, length := s.length, offset := some offset }

end SpecifierSource

/-- A piece of a template. -/
inductive Token where
  | literal (text : Chars) (offset : Nat)
  | specifier (s : Specifier)
deriving DecidableEq

/-- What a scan gives: the tokens in order, and why it ended before the end of the template, if it
did. -/
structure Scan where
  /-- The tokens. No two literal texts are adjacent. -/
  tokens : List Token
  /-- Why the rest of the template could not be scanned. -/
  failure : Option Failure
deriving DecidableEq

namespace Scan

/-- The scan of a template that begins with a literal character before what was scanned. Literal
text that runs into a failure is dropped. -/
def cons (c : CodePoint) (offset : Nat) (s : Scan) : Scan :=
  match s.tokens, s.failure with
  | .literal text _ :: rest, _ => { s with tokens := .literal (c :: text) offset :: rest }
  | [], some _ => s
  | tokens, _ => { s with tokens := .literal [c] offset :: tokens }

/-- Characters that end the source in a message about a percent sign that begins no specifier. -/
def endsSource (c : CodePoint) : Bool := c = '%' ∨ c = ' ' ∨ c = '\t' ∨ c = '\n'

/-- What is wrong with a percent sign that begins no specifier; `rest` is the text behind it. -/
def malformed (offset : Nat) (rest : Chars) : Problem :=
  match rest.takeWhile fun c => !endsSource c with
  | [] => .incompleteSpecifier offset
  | source => .invalidSpecifier ('%' :: source) offset

/-- The scan of the text behind its first `skip` characters, which belong to a token already
scanned; `offset` is where the text begins. -/
def fromOffset (skip offset : Nat) : Chars → Scan
  | [] => { tokens := [], failure := none }
  | c :: cs =>
    match skip with
    | skip + 1 => fromOffset skip (offset + 1) cs
    | 0 =>
      if c ≠ '%' then
        cons c offset (fromOffset 0 (offset + 1) cs)
      else if cs.head? = some (CodePoint.ofChar '%') then
        cons '%' offset (fromOffset 1 (offset + 1) cs)
      else
        match SpecifierSource.scan? cs with
        | none => { tokens := [], failure := some (.problem (malformed offset cs)) }
        | some (source, rest) =>
          match source.toSpecifier offset with
          | .error e => { tokens := [], failure := some e }
          | .ok s =>
            let scan := fromOffset (cs.length - rest.length) (offset + 1) cs
            { scan with tokens := .specifier s :: scan.tokens }

/-- The scan of a template. -/
def ofChars (cs : Chars) : Scan := fromOffset 0 0 cs

end Scan

end UnitText
