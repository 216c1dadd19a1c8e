/-!
# Code points

Text is made of code points. Unlike a `Char`, a `CodePoint` may be a surrogate: text that was read
from damaged bytes, or cut in the middle of a pair, has to keep what it holds.

## Main definitions

- `CodePoint` — a number below `0x110000`
- `Chars` — a sequence of code points
-/

namespace UnitText

/-- A Unicode code point, surrogates included. -/
structure CodePoint where
  val : Nat
  /-- Code points end below `0x110000`. -/
  val_lt : val < 0x110000
deriving DecidableEq

namespace CodePoint

def ofChar (c : Char) : CodePoint where
  val := c.toNat
  val_lt := by
    have h := c.valid
    have e : c.val.toNat = c.toNat := rfl
    simp only [UInt32.isValidChar, Nat.isValidChar, e] at h
    omega

instance : Coe Char CodePoint := ⟨ofChar⟩

instance : Inhabited CodePoint := ⟨ofChar ' '⟩

/-- The code point with number `n`, or `none` if there is none. -/
def ofNat? (n : Nat) : Option CodePoint :=
  if h : n < 0x110000 then some ⟨n, h⟩ else none

/-- The code point with number `n`; a number out of range gives the replacement character. -/
def ofNat (n : Nat) : CodePoint :=
  if h : n < 0x110000 then ⟨n, h⟩ else ⟨0xFFFD, by decide⟩

/-- The character with the same number; a surrogate gives the NUL character. -/
def toChar (c : CodePoint) : Char := Char.ofNat c.val

/-- Surrogates are the halves of pairs of 16-bit units. They stand for no character. -/
def IsSurrogate (c : CodePoint) : Prop := 0xD800 ≤ c.val ∧ c.val < 0xE000

instance (c : CodePoint) : Decidable c.IsSurrogate :=
  inferInstanceAs (Decidable (0xD800 ≤ c.val ∧ c.val < 0xE000))

@[ext] theorem ext {a b : CodePoint} (h : a.val = b.val) : a = b := by
  cases a; cases b; simp_all

@[simp] theorem val_ofChar (c : Char) : (ofChar c).val = c.toNat := rfl

theorem val_ofNat {n : Nat} (h : n < 0x110000) : (ofNat n).val = n := by
  simp [ofNat, h]

@[simp] theorem ofNat_val (c : CodePoint) : ofNat c.val = c := by
  simp [ofNat, c.val_lt]

theorem ofNat?_eq_some_iff {n : Nat} {c : CodePoint} : ofNat? n = some c ↔ c.val = n := by
  constructor
  · intro h
    simp only [ofNat?] at h
    split at h
    · cases h; rfl
    · cases h
  · rintro rfl
    simp [ofNat?, c.val_lt]

end CodePoint

/-- A sequence of code points: the characters of a text. -/
abbrev Chars := List CodePoint

namespace Chars

def ofString (s : String) : Chars := s.toList.map CodePoint.ofChar

/-- The string with these code points; a surrogate gives the NUL character. -/
def toString (cs : Chars) : String := String.ofList (cs.map CodePoint.toChar)

@[simp] theorem length_ofString (s : String) : (ofString s).length = s.length := by
  simp [ofString, String.length_toList]

@[simp] theorem ofString_append (s t : String) : ofString (s ++ t) = ofString s ++ ofString t := by
  simp [ofString]

end Chars

end UnitText
