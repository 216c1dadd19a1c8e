import UnitText.Number.Decimal
import UnitText.Numeral.Literal
import UnitText.Unicode

/-!
# Numbers in single words

A word is read as an integer or as a floating-point number, apart from any styles: with a sign, with
white space around it, and with single underscores between its digits.

## Main definitions

- `Chars.isWord` — whether a text is a word, in whatever case its letters are
- `Chars.asciiForm` — white space and digits of other scripts as those of ASCII
- `Integer.ofWord` — the integer that a word is
- `Double.ofWord` — the floating-point number that a word is
-/

namespace UnitText

namespace Chars

/-- Whether `cs` is the word, in whatever case its letters are. -/
def isWord (word : String) (cs : Chars) : Bool :=
  cs.map (fun c => if 0x41 ≤ c.val ∧ c.val ≤ 0x5A then c.val + 0x20 else c.val) ==
    word.toList.map Char.toNat

/-- A code point outside ASCII as a space or a digit of ASCII, if it is white space or a digit. -/
def asciiPoint (c : CodePoint) : CodePoint :=
  if c.val < 0x80 then c
  else if c.isWhiteSpace then ' '
  else
    match c.digit? with
    | some d => .ofNat (0x30 + d)
    | none => c

/-- The text with white space and digits of other scripts as those of ASCII. -/
def asciiForm (cs : Chars) : Chars := cs.map asciiPoint

/-- Whether the code point is white space of ASCII that ends lines or sets words apart. -/
def isBlank (c : CodePoint) : Bool := c.val = 0x20 || (0x09 ≤ c.val && c.val ≤ 0x0D)

/-- The text without the blanks around it. -/
def trimmed (cs : Chars) : Chars :=
  ((cs.dropWhile isBlank).reverse.dropWhile isBlank).reverse

/-- Whether the code point is a digit of ASCII. -/
def isPlainDigit (c : CodePoint) : Bool := (radixDigit? 10 c).isSome

/-- Whether each underscore stands between two digits; `behindDigit` says whether a digit stands
right before the text. -/
def underscoresInside (behindDigit : Bool) : Chars → Bool
  | [] => true
  | c :: cs =>
    if c = '_' then
      behindDigit && cs.head?.any isPlainDigit && underscoresInside false cs
    else
      underscoresInside (isPlainDigit c) cs

end Chars

/-- The integer that a word is. A word with too many digits is not read, whatever stands behind
them. `quoted` is the word as messages show it. -/
def Integer.ofWord (quoted : String) (cs : Chars) : Except Failure Int :=
  let (negative, digitsAt) := DecimalLiteral.scanSign (cs.dropWhile Chars.isBlank)
  let isPart (c : CodePoint) : Bool := Chars.isPlainDigit c || c = '_'
  let part := digitsAt.takeWhile isPart
  let digits := part.filterMap (radixDigit? 10)
  if digits = [] ∨ ¬Chars.underscoresInside false part then
    .error (.value (.notIntegerText quoted))
  else if Integer.digitLimit < digits.length then
    .error (.value (.tooLongToRead digits.length))
  else if (digitsAt.dropWhile isPart).all Chars.isBlank then
    .ok (if negative then -(digitsValue 10 digits : Int) else digitsValue 10 digits)
  else
    .error (.value (.notIntegerText quoted))

/-- The floating-point number that a word is. `quoted` is the word as messages show it. -/
def Double.ofWord (quoted : String) (cs : Chars) : Except Failure Double :=
  let inner := cs.trimmed
  let (negative, magnitude) := DecimalLiteral.scanSign (inner.filter (· ≠ '_'))
  if ¬inner.underscoresInside false then
    .error (.value (.notFloatText quoted))
  else if magnitude.isWord "inf" ∨ magnitude.isWord "infinity" then
    .ok (.infinity negative)
  else if magnitude.isWord "nan" then
    .ok (.nan negative)
  else
    match DecimalLiteral.scan? .float magnitude with
    | some (l, []) => .ok (.ofDecimal negative l.coefficient l.power)
    | _ => .error (.value (.notFloatText quoted))

end UnitText
