import UnitText.Template.Scan

/-!
# The grammar of templates

What templates are, said without a scanner: a sequence of characters other than the percent sign,
of percent signs written twice, and of specifiers. A specifier is a percent sign, flags, a width, a
precision, a length modifier and the letter of a conversion, of which all but the first and the last
may be missing.

## Main definitions

- `IsSpecifierText` — the texts that may stand behind the percent sign of a specifier
- `IsTemplate` — the texts that are templates
- `SpecifierSource.IsWritten` — the parts of a specifier, as a text writes them
- `IsLiteral`, `Tokenizes` — tokens that share out a text among them

## Design notes

`IsSpecifierText` leaves open whether a zero behind the percent sign is a flag or a digit of the
width. The two readings are the same text, so the language does not depend on it. The parts do, and
`SpecifierSource.IsWritten` takes as many flags as there are.
-/

namespace UnitText

def CodePoint.IsFlag (c : CodePoint) : Prop := c ∈ ['-', '+', ' ', '#', '0'].map CodePoint.ofChar

instance (c : CodePoint) : Decidable c.IsFlag :=
  inferInstanceAs (Decidable (c ∈ ['-', '+', ' ', '#', '0'].map CodePoint.ofChar))

def Flags.ofChars (cs : Chars) : Flags where
  left := CodePoint.ofChar '-' ∈ cs
  sign := CodePoint.ofChar '+' ∈ cs
  space := CodePoint.ofChar ' ' ∈ cs
  alternate := CodePoint.ofChar '#' ∈ cs
  zero := CodePoint.ofChar '0' ∈ cs

namespace CountSource

/-- The text that writes a count: decimal digits of any script, or a star. -/
inductive IsWritten : CountSource → Chars → Prop where
  | digits {cs : Chars} {ds : List Nat} (h : cs ≠ [])
    (hds : cs.map CodePoint.digit? = ds.map some) : IsWritten (.digits ds) cs
  | star : IsWritten .star [CodePoint.ofChar '*']

/-- The text that writes a width, which may be missing. -/
inductive IsWidth : Option CountSource → Chars → Prop where
  | none : IsWidth none []
  | some {c : CountSource} {cs : Chars} (h : c.IsWritten cs) : IsWidth (some c) cs

/-- The text that writes a precision, which may be missing. -/
inductive IsPrecision : Option CountSource → Chars → Prop where
  | none : IsPrecision none []
  | point : IsPrecision (some (.digits [0])) [CodePoint.ofChar '.']
  | some {c : CountSource} {cs : Chars} (h : c.IsWritten cs) :
    IsPrecision (some c) (CodePoint.ofChar '.' :: cs)

/-- The count that is written, however many digits it has. -/
def count : CountSource → Count
  | digits ds => .number (digitsValue 10 ds)
  | star => .star

end CountSource

/-- The text that may stand behind the percent sign of a specifier. -/
def IsSpecifierText (cs : Chars) : Prop :=
  ∃ (flags width precision : Chars) (m : Length) (k : Kind),
    cs = flags ++ (width ++ (precision ++ (Chars.ofString m.text ++ [CodePoint.ofChar k.letter]))) ∧
    (∀ c ∈ flags, c.IsFlag) ∧ (∃ c, CountSource.IsWidth c width) ∧
    ∃ c, CountSource.IsPrecision c precision

namespace SpecifierSource

/-- The text that writes the parts of a specifier behind its percent sign. The width does not begin
with a character that could have been a flag. -/
def IsWritten (s : SpecifierSource) (cs : Chars) : Prop :=
  ∃ flags width precision : Chars,
    cs = flags ++ (width ++ (precision ++
      (Chars.ofString s.length.text ++ [CodePoint.ofChar s.kind.letter]))) ∧
    (∀ c ∈ flags, c.IsFlag) ∧ s.flags = .ofChars flags ∧
    CountSource.IsWidth s.width width ∧ (∀ c ∈ width.head?, ¬c.IsFlag) ∧
    CountSource.IsPrecision s.precision precision

/-- The specifier with these parts, whose percent sign stands at an offset. -/
def specifier (s : SpecifierSource) (offset : Nat) : Specifier where
  kind := s.kind
  flags := s.flags
  width := s.width.map CountSource.count
  precision := s.precision.map CountSource.count
  length := s.length
  offset := some offset

end SpecifierSource

/-- The texts that are templates. -/
inductive IsTemplate : Chars → Prop where
  | nil : IsTemplate []
  | char {c : CodePoint} {cs : Chars} (h : c ≠ CodePoint.ofChar '%') (hcs : IsTemplate cs) :
    IsTemplate (c :: cs)
  | escape {cs : Chars} (hcs : IsTemplate cs) :
    IsTemplate (CodePoint.ofChar '%' :: CodePoint.ofChar '%' :: cs)
  | specifier {body cs : Chars} (h : IsSpecifierText body) (hcs : IsTemplate cs) :
    IsTemplate (CodePoint.ofChar '%' :: (body ++ cs))

/-- Literal text, and the text that writes it: itself, but each percent sign is written twice. -/
inductive IsLiteral : Chars → Chars → Prop where
  | nil : IsLiteral [] []
  | char {c : CodePoint} {text source : Chars} (h : c ≠ CodePoint.ofChar '%')
    (htext : IsLiteral text source) : IsLiteral (c :: text) (c :: source)
  | escape {text source : Chars} (htext : IsLiteral text source) :
    IsLiteral (CodePoint.ofChar '%' :: text)
      (CodePoint.ofChar '%' :: CodePoint.ofChar '%' :: source)

def Token.IsLiteral : Token → Prop
  | .literal _ _ => True
  | .specifier _ => False

/-- Tokens in order, each of which writes its part of a text that begins at an offset. No literal
text stands next to another, none is empty, and a percent sign written twice is no specifier. -/
inductive Tokenizes : Nat → List Token → Chars → Prop where
  | nil {offset : Nat} : Tokenizes offset [] []
  | literal {offset : Nat} {text source cs : Chars} {tokens : List Token}
    (h : UnitText.IsLiteral text source) (hne : text ≠ [])
    (hnext : ∀ t ∈ tokens.head?, ¬t.IsLiteral)
    (htokens : Tokenizes (offset + source.length) tokens cs) :
    Tokenizes offset (.literal text offset :: tokens) (source ++ cs)
  | specifier {offset : Nat} {s : SpecifierSource} {body cs : Chars} {tokens : List Token}
    (h : s.IsWritten body) (hne : body ≠ [CodePoint.ofChar '%'])
    (htokens : Tokenizes (offset + (1 + body.length)) tokens cs) :
    Tokenizes offset (.specifier (s.specifier offset) :: tokens)
      (CodePoint.ofChar '%' :: (body ++ cs))

end UnitText
