import UnitText.Numeral.Basic

/-!
# The grammar of numerals

What numerals are, said without a scanner. A numeral is a literal with a sign before it and white
space around it, and a literal is a decimal number or the digits of another base behind a mark. The
styles say which of these parts there may be.

## Main definitions

- `WritesSign`, `WritesGroups` — the texts of signs and of groups of digits
- `DecimalLiteral.IsWritten` — the texts of decimal literals
- `Literal.IsWritten` — the texts of literals
- `Numeral.IsWritten` — the texts of numerals

## Design notes

Digits are decimal digits of any script, but those behind a mark are ASCII. A text is related to the
digits that it consists of, not only to the number, because the number of places counts.
-/

namespace UnitText

/-- The text of a sign, and whether it is a minus. -/
inductive WritesSign : Bool → Chars → Prop where
  | none : WritesSign false []
  | plus : WritesSign false [CodePoint.ofChar '+']
  | minus : WritesSign true [CodePoint.ofChar '-']

/-- The text of groups of three digits, each of them behind a comma. -/
inductive WritesGroups : List Nat → Chars → Prop where
  | nil : WritesGroups [] []
  | cons {a b c : CodePoint} {x y z : Nat} {ds : List Nat} {cs : Chars} (ha : a.digit? = some x)
    (hb : b.digit? = some y) (hc : c.digit? = some z) (h : WritesGroups ds cs) :
    WritesGroups (x :: y :: z :: ds) (CodePoint.ofChar ',' :: a :: b :: c :: cs)

namespace DecimalLiteral

/-- The text of the digits before the point: any number of them, or up to three and groups of three
behind them. -/
inductive WritesWhole (s : Styles) : List Nat → Chars → Prop where
  | digits {ds : List Nat} {cs : Chars} (hne : ds ≠ [])
    (hds : cs.map CodePoint.digit? = ds.map some) : WritesWhole s ds cs
  | groups {ds es : List Nat} {cs gs : Chars} (hs : s.thousands) (hne : ds ≠ [])
    (hlength : ds.length ≤ 3) (hds : cs.map CodePoint.digit? = ds.map some)
    (hgroups : WritesGroups es gs) : WritesWhole s (ds ++ es) (cs ++ gs)

/-- The text of the digits before and after the point, of which there is at least one. -/
inductive WritesMantissa (s : Styles) : List Nat → List Nat → Chars → Prop where
  | whole {ds : List Nat} {cs : Chars} (h : WritesWhole s ds cs) : WritesMantissa s ds [] cs
  | point {ds es : List Nat} {cs ps : Chars} (hs : s.decimalPoint) (h : WritesWhole s ds cs)
    (hes : ps.map CodePoint.digit? = es.map some) :
    WritesMantissa s ds es (cs ++ CodePoint.ofChar '.' :: ps)
  | fraction {es : List Nat} {ps : Chars} (hs : s.decimalPoint) (hne : es ≠ [])
    (hes : ps.map CodePoint.digit? = es.map some) :
    WritesMantissa s [] es (CodePoint.ofChar '.' :: ps)

/-- The text of an exponent, which may be missing. -/
inductive WritesExponent (s : Styles) : Int → Chars → Prop where
  | none : WritesExponent s 0 []
  | some {mark : CodePoint} {negative : Bool} {ds : List Nat} {sign cs : Chars} (hs : s.exponent)
    (hmark : mark = CodePoint.ofChar 'e' ∨ mark = CodePoint.ofChar 'E')
    (hsign : WritesSign negative sign) (hne : ds ≠ [])
    (hds : cs.map CodePoint.digit? = ds.map some) :
    WritesExponent s (if negative then -(digitsValue 10 ds : Int) else digitsValue 10 ds)
      (mark :: (sign ++ cs))

/-- The text of a decimal literal. -/
def IsWritten (s : Styles) (l : DecimalLiteral) (cs : Chars) : Prop :=
  ∃ front back : Chars, cs = front ++ back ∧ WritesMantissa s l.whole l.fraction front ∧
    WritesExponent s l.exponent back

end DecimalLiteral

namespace Literal

/-- The mark of a base, if the styles allow it. -/
inductive IsMark (s : Styles) : CodePoint → Nat → Prop where
  | hex {c : CodePoint} (hs : s.hexLiteral)
    (h : c = CodePoint.ofChar 'x' ∨ c = CodePoint.ofChar 'X') : IsMark s c 16
  | binary {c : CodePoint} (hs : s.binaryLiteral)
    (h : c = CodePoint.ofChar 'b' ∨ c = CodePoint.ofChar 'B') : IsMark s c 2
  | octal {c : CodePoint} (hs : s.octalLiteral)
    (h : c = CodePoint.ofChar 'o' ∨ c = CodePoint.ofChar 'O') : IsMark s c 8

/-- The text of a literal. -/
inductive IsWritten (s : Styles) : Literal → Chars → Prop where
  | radix {mark : CodePoint} {base : Nat} {ds : List Nat} {cs : Chars} (hmark : IsMark s mark base)
    (hne : ds ≠ []) (hds : cs.map (radixDigit? base) = ds.map some) :
    IsWritten s (.radix (digitsValue base ds)) (CodePoint.ofChar '0' :: mark :: cs)
  | decimal {l : DecimalLiteral} {cs : Chars} (h : l.IsWritten s cs) : IsWritten s (.decimal l) cs

end Literal

/-- White space where it may stand. -/
def Chars.IsWhite (allowed : Bool) (cs : Chars) : Prop :=
  (∀ c ∈ cs, c.isWhiteSpace) ∧ (cs ≠ [] → allowed)

/-- The text of a numeral: white space, a sign, a literal and white space. -/
def Numeral.IsWritten (s : Styles) (n : Numeral) (cs : Chars) : Prop :=
  ∃ white sign body trailing : Chars, cs = white ++ (sign ++ (body ++ trailing)) ∧
    white.IsWhite s.leadingWhite ∧ WritesSign n.negative sign ∧ (sign ≠ [] → s.leadingSign) ∧
    n.literal.IsWritten s body ∧ trailing.IsWhite s.trailingWhite

end UnitText
