import UnitText.CodePoint

/-!
# UTF-8 that loses nothing

Well-formed UTF-8 is read as the characters it encodes. A byte that belongs to no well-formed
sequence is *escaped*: it is read as the surrogate `U+DC00 + b`, which no well-formed sequence
encodes. Writing turns an escape back into its byte, so reading and writing again gives the same
bytes, whatever they were.

## Main definitions

- `Utf8.decode` — the characters of a sequence of bytes, damaged ones escaped
- `Utf8.bytesOf` — the bytes of one character
- `Utf8.IsEncodable` — which characters can be written: all but the surrogates that are no escapes

## Design notes

Bytes are natural numbers, as the units of every width are. `decode` walks the bytes once and
counts how many of the following ones belong to the character just read, so it recurses on the
list of bytes and needs no other measure.
-/

namespace UnitText

namespace Utf8

def IsContinuation (b : Nat) : Prop := 0x80 ≤ b ∧ b < 0xC0

instance (b : Nat) : Decidable (IsContinuation b) :=
  inferInstanceAs (Decidable (0x80 ≤ b ∧ b < 0xC0))

def escape (b : Nat) : CodePoint := CodePoint.ofNat (0xDC00 + b)

def IsEscape (c : CodePoint) : Prop := 0xDC80 ≤ c.val ∧ c.val < 0xDD00

instance (c : CodePoint) : Decidable (IsEscape c) :=
  inferInstanceAs (Decidable (0xDC80 ≤ c.val ∧ c.val < 0xDD00))

/-- The character of a two-byte sequence, if it has no shorter form. -/
def pair? (a b : Nat) : Option CodePoint :=
  let v := (a - 0xC0) * 0x40 + (b - 0x80)
  if IsContinuation b ∧ 0x80 ≤ v then some (CodePoint.ofNat v) else none

/-- The character of a three-byte sequence, if it has no shorter form and is no surrogate. -/
def triple? (a b c : Nat) : Option CodePoint :=
  let v := ((a - 0xE0) * 0x40 + (b - 0x80)) * 0x40 + (c - 0x80)
  if IsContinuation b ∧ IsContinuation c ∧ 0x800 ≤ v ∧ ¬(0xD800 ≤ v ∧ v < 0xE000) then
    some (CodePoint.ofNat v)
  else
    none

/-- The character of a four-byte sequence, if it has no shorter form and is in range. -/
def quadruple? (a b c d : Nat) : Option CodePoint :=
  let v := (((a - 0xF0) * 0x40 + (b - 0x80)) * 0x40 + (c - 0x80)) * 0x40 + (d - 0x80)
  if IsContinuation b ∧ IsContinuation c ∧ IsContinuation d ∧ 0x10000 ≤ v ∧ v < 0x110000 then
    some (CodePoint.ofNat v)
  else
    none

/-- The character that byte `a` begins, and how many of the following bytes belong to it. -/
def lead? (a : Nat) (rest : List Nat) : Option (CodePoint × Nat) :=
  if a < 0x80 then
    some (CodePoint.ofNat a, 0)
  else if a < 0xC0 then
    none
  else if a < 0xE0 then
    match rest with
    | b :: _ => (pair? a b).map (·, 1)
    | _ => none
  else if a < 0xF0 then
    match rest with
    | b :: c :: _ => (triple? a b c).map (·, 2)
    | _ => none
  else
    match rest with
    | b :: c :: d :: _ => (quadruple? a b c d).map (·, 3)
    | _ => none

/-- The characters of the bytes behind the first `skip`, which are of a character already read. -/
def decodeFrom : Nat → List Nat → Chars
  | _, [] => []
  | skip + 1, _ :: rest => decodeFrom skip rest
  | 0, a :: rest =>
    match lead? a rest with
    | some (c, used) => c :: decodeFrom used rest
    | none => escape a :: decodeFrom 0 rest

/-- The characters of a sequence of bytes; bytes of no well-formed sequence are escaped. -/
def decode (bytes : List Nat) : Chars := decodeFrom 0 bytes

/-- Characters that have bytes: those that are no surrogates, and the escapes. -/
def IsEncodable (c : CodePoint) : Prop := ¬c.IsSurrogate ∨ IsEscape c

instance (c : CodePoint) : Decidable (IsEncodable c) :=
  inferInstanceAs (Decidable (¬c.IsSurrogate ∨ IsEscape c))

/-- The bytes of a character. An escape gives the byte it stands for. -/
def bytesOf (c : CodePoint) : List Nat :=
  let v := c.val
  if v < 0x80 then
    [v]
  else if v < 0x800 then
    [0xC0 + v / 0x40, 0x80 + v % 0x40]
  else if IsEscape c then
    [v - 0xDC00]
  else if v < 0x10000 then
    [0xE0 + v / 0x1000, 0x80 + v / 0x40 % 0x40, 0x80 + v % 0x40]
  else
    [0xF0 + v / 0x40000, 0x80 + v / 0x1000 % 0x40, 0x80 + v / 0x40 % 0x40, 0x80 + v % 0x40]

def bytes (cs : Chars) : List Nat := cs.flatMap bytesOf

@[simp] theorem bytes_nil : bytes [] = [] := rfl

@[simp] theorem bytes_cons (c : CodePoint) (cs : Chars) : bytes (c :: cs) = bytesOf c ++ bytes cs :=
  rfl

@[simp] theorem bytes_append (cs ds : Chars) : bytes (cs ++ ds) = bytes cs ++ bytes ds := by
  simp [bytes]

end Utf8

end UnitText
