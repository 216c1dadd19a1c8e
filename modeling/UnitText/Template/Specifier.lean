import UnitText.Number.Digits

/-!
# Conversion specifiers

A format template asks for a value with a *conversion specifier*: a percent sign, flags, a minimum
width, a precision, a length modifier and the letter of a conversion, as in `%-08.3lx`. A width or
precision written as a star is supplied by an argument.

## Main definitions

- `Flags`, `Count`, `Length`, `Kind` — the parts of a specifier
- `Specifier` — a specifier, with the offset of its percent sign
- `Specifier.text` — the specifier as it is written
-/

namespace UnitText

structure Flags where
  /-- The minus sign: the field is filled on its right. -/
  left : Bool := false
  /-- The plus sign: numbers that are not negative get a plus sign. -/
  sign : Bool := false
  /-- The space: numbers that are not negative get a space. -/
  space : Bool := false
  /-- The number sign: the alternate form of the conversion. -/
  alternate : Bool := false
  /-- The digit zero: numbers are filled with zeros. -/
  zero : Bool := false
deriving DecidableEq

namespace Flags

/-- The flags, each written once, in a fixed order. -/
def text (f : Flags) : String :=
  String.ofList
    ((if f.left then ['-'] else []) ++ (if f.sign then ['+'] else []) ++
      (if f.space then [' '] else []) ++ (if f.alternate then ['#'] else []) ++
      (if f.zero then ['0'] else []))

/-- The flags with one more set, if the character is a flag. -/
def insert? (f : Flags) (c : CodePoint) : Option Flags :=
  if c = '-' then some { f with left := true }
  else if c = '+' then some { f with sign := true }
  else if c = ' ' then some { f with space := true }
  else if c = '#' then some { f with alternate := true }
  else if c = '0' then some { f with zero := true }
  else none

end Flags

/-- A width or a precision, as a specifier gives it. -/
inductive Count where
  | number (n : Nat)
  | star
deriving DecidableEq

/-- The count as it is written. -/
def Count.text : Count → String
  | number n => n.repr
  | star => "*"

/-- The length modifiers. They say how large the integer argument of a conversion is. -/
inductive Length where
  | none
  | hh
  | h
  | l
  | ll
  | j
  | z
  | t
  | bigL
deriving DecidableEq

namespace Length

/-- The modifier as it is written. -/
def text : Length → String
  | none => ""
  | hh => "hh"
  | h => "h"
  | l => "l"
  | ll => "ll"
  | j => "j"
  | z => "z"
  | t => "t"
  | bigL => "L"

/-- The number of bits of an integer of this length, where pointers and long integers have 64. -/
def bits : Length → Nat
  | none => 32
  | hh => 8
  | h => 16
  | _ => 64

def all : List Length := [none, hh, h, l, ll, j, z, t, bigL]

/-- The modifier that is written as `cs`. -/
def ofChars? (cs : Chars) : Option Length := all.find? fun m => Chars.ofString m.text = cs

end Length

/-- The ways to write an integer. -/
inductive IntegerForm where
  /-- Signed decimal, letter `d`. -/
  | signedD
  /-- Signed decimal, letter `i`. -/
  | signedI
  | unsigned
  | octal
  | hex (upper : Bool)
  | binary (upper : Bool)
deriving DecidableEq

/-- The ways to write a floating-point number. -/
inductive FloatForm where
  | fixed
  | exponent
  | general
  | hex
deriving DecidableEq

inductive Kind where
  | integer (form : IntegerForm)
  | float (form : FloatForm) (upper : Bool)
  | char
  | string
  | pointer
  | count
  | percent
deriving DecidableEq

namespace Kind

def letter : Kind → Char
  | integer .signedD => 'd'
  | integer .signedI => 'i'
  | integer .unsigned => 'u'
  | integer .octal => 'o'
  | integer (.hex upper) => if upper then 'X' else 'x'
  | integer (.binary upper) => if upper then 'B' else 'b'
  | float .fixed upper => if upper then 'F' else 'f'
  | float .exponent upper => if upper then 'E' else 'e'
  | float .general upper => if upper then 'G' else 'g'
  | float .hex upper => if upper then 'A' else 'a'
  | char => 'c'
  | string => 's'
  | pointer => 'p'
  | count => 'n'
  | percent => '%'

def all : List Kind :=
  [integer .signedD, integer .signedI, integer .unsigned, integer .octal, integer (.hex false),
   integer (.hex true), integer (.binary false), integer (.binary true), float .fixed false,
   float .fixed true, float .exponent false, float .exponent true, float .general false,
   float .general true, float .hex false, float .hex true, char, string, pointer, count, percent]

/-- The conversion with a given letter. -/
def ofLetter? (c : CodePoint) : Option Kind := all.find? fun k => CodePoint.ofChar k.letter = c

/-- The conversion whose letter is all of `cs`. -/
def ofChars? : Chars → Option Kind
  | [c] => ofLetter? c
  | _ => none

/-- Whether the conversion writes integers. -/
def isInteger : Kind → Bool
  | integer _ => true
  | _ => false

/-- Whether the conversion writes integers with their sign. -/
def isSigned : Kind → Bool
  | integer .signedD => true
  | integer .signedI => true
  | _ => false

/-- Whether the conversion writes floating-point numbers. -/
def isFloat : Kind → Bool
  | float _ _ => true
  | _ => false

/-- Whether the letter of the conversion is a capital. -/
def isUpper : Kind → Bool
  | integer (.hex upper) => upper
  | integer (.binary upper) => upper
  | float _ upper => upper
  | _ => false

/-- The base in which the conversion writes integers. -/
def radix : Kind → Nat
  | integer .octal => 8
  | integer (.hex _) => 16
  | integer (.binary _) => 2
  | _ => 10

end Kind

/-- A conversion specifier. -/
structure Specifier where
  kind : Kind
  flags : Flags := {}
  width : Option Count := none
  precision : Option Count := none
  length : Length := .none
  /-- The offset of the percent sign in the template, for a specifier that stands in one. -/
  offset : Option Int := none
deriving DecidableEq

namespace Specifier

/-- The specifier in its canonical spelling. -/
def text (s : Specifier) : String :=
  "%" ++ s.flags.text ++ (s.width.map Count.text).getD "" ++
    (match s.precision with
      | none => ""
      | some p => "." ++ p.text) ++
    s.length.text ++ String.singleton s.kind.letter

/-- The offset of the specifier, as messages name it. -/
def place (s : Specifier) : String :=
  match s.offset with
  | some n => Integer.text n
  | none => "None"

/-- The number of arguments the specifier consumes: one for each star, and one for its value. -/
def argumentCount (s : Specifier) : Nat :=
  (if s.width = some .star then 1 else 0) + (if s.precision = some .star then 1 else 0) +
    (if s.kind = .percent then 0 else 1)

end Specifier

end UnitText
