import UnitText.Number.Digits
import UnitText.Unicode

/-!
# Quoted text

Messages quote the texts they speak of. A quoted text stands between apostrophes, or between
quotation marks if it holds an apostrophe and no quotation mark. What cannot be shown is escaped:
the backslash, the quote in use, line ends and tabs by a letter, everything else by its number.

## Main definitions

- `Chars.quoted` — a text, quoted
- `Bytes.quoted` — a sequence of bytes, quoted
-/

namespace UnitText

/-- The code point by its number, in the shortest escape that can hold it. -/
def CodePoint.escaped (c : CodePoint) : String :=
  if c.val < 0x100 then
    "\\x" ++ hexText 2 c.val
  else if c.val < 0x10000 then
    "\\u" ++ hexText 4 c.val
  else
    "\\U" ++ hexText 8 c.val

/-- The mark that a text is quoted with, given by its code point. -/
def quoteMark (holdsApostrophe holdsQuotation : Bool) : Nat :=
  if holdsApostrophe && !holdsQuotation then 0x22 else 0x27

/-- The escapes that quoted texts and quoted bytes share. -/
def sharedEscape? (mark n : Nat) : Option String :=
  if n = mark ∨ n = 0x5C then some (String.ofList ['\\', Char.ofNat n])
  else if n = 0x09 then some "\\t"
  else if n = 0x0A then some "\\n"
  else if n = 0x0D then some "\\r"
  else none

namespace Chars

/-- The text between quotes, with everything escaped that cannot be shown. -/
def quoted (cs : Chars) : String :=
  let mark := quoteMark (cs.any (·.val == 0x27)) (cs.any (·.val == 0x22))
  let shown (c : CodePoint) : String :=
    match sharedEscape? mark c.val with
    | some s => s
    | none => if c.isPrintable then String.singleton c.toChar else c.escaped
  let quote := String.singleton (Char.ofNat mark)
  quote ++ String.join (cs.map shown) ++ quote

end Chars

namespace Bytes

/-- The bytes between quotes after the letter `b`: printable ASCII characters as they are, all
other bytes escaped, and so is the mark given. -/
def quotedEscaping (escaped mark : Nat) (bytes : List Nat) : String :=
  let shown (b : Nat) : String :=
    match sharedEscape? escaped b with
    | some s => s
    | none =>
      if 0x20 ≤ b ∧ b < 0x7F then String.singleton (Char.ofNat b) else "\\x" ++ hexText 2 b
  let quote := String.singleton (Char.ofNat mark)
  "b" ++ quote ++ String.join (bytes.map shown) ++ quote

/-- The mark that a sequence of bytes is quoted with. -/
def mark (bytes : List Nat) : Nat := quoteMark (bytes.contains 0x27) (bytes.contains 0x22)

/-- The bytes between quotes. -/
def quoted (bytes : List Nat) : String := quotedEscaping (mark bytes) (mark bytes) bytes

/-- The bytes of a buffer between quotes. Apostrophes are escaped, whichever mark is in use. -/
def bufferQuoted (bytes : List Nat) : String := quotedEscaping 0x27 (mark bytes) bytes

end Bytes

end UnitText
