import UnitText.Encoding.Utf16
import UnitText.Encoding.Utf8
import UnitText.Text.Basic

/-!
# Characters and code units

The characters of a text are what its units encode: UTF-8 in narrow text, UTF-16 in text of the
middle width, one code point for each unit in the widest.

## Main definitions

- `Text.decode` — the characters of a text
- `Width.encode` — the units of some characters
- `Text.encodeLike` — characters in the container of another text
- `Width.unitCount` — how many units characters take
-/

namespace UnitText

namespace Utf8

/-- The first run of characters that have no bytes, where `encodes` tells which have. The run begins
at the first such character and goes on to the end of the surrogates after it. -/
def faultOf? (encodes : CodePoint → Bool) (cs : Chars) : Option EncodingFault :=
  let start := (cs.takeWhile encodes).length
  match cs.drop start with
  | [] => none
  | c :: rest =>
    some { codec := .utf8, character := c, start
           stop := start + 1 + (rest.takeWhile fun d => decide d.IsSurrogate).length }

/-- The first run of characters that UTF-8 has no bytes for. -/
def fault? (cs : Chars) : Option EncodingFault := faultOf? (fun c => decide (IsEncodable c)) cs

/-- The first run of surrogates, which UTF-8 has no bytes for unless it takes escapes. -/
def surrogates? (cs : Chars) : Option EncodingFault := faultOf? (fun c => !decide c.IsSurrogate) cs

end Utf8

namespace Width

/-- The units of a character. -/
def unitsOf : Width → CodePoint → List Nat
  | narrow, c => Utf8.bytesOf c
  | wide16, c => Utf16.unitsOf c
  | wide32, c => [c.val]

/-- The units of a sequence of characters, whether or not all of them can be encoded. -/
def units (w : Width) (cs : Chars) : List Nat := cs.flatMap w.unitsOf

/-- The first run of characters that text of this width cannot hold. -/
def fault? : Width → Chars → Option EncodingFault
  | narrow, cs => Utf8.fault? cs
  | _, _ => none

def encode (w : Width) (cs : Chars) : Except Failure (List Nat) :=
  match w.fault? cs with
  | none => .ok (w.units cs)
  | some f => .error (.encoding f)

/-- The number of units that a sequence of characters takes, if each of them can be encoded. -/
def length (w : Width) (cs : Chars) : Nat := cs.foldr (fun c n => (w.unitsOf c).length + n) 0

/-- The number of units that a sequence of characters takes. -/
def unitCount (w : Width) (cs : Chars) : Except Failure Nat :=
  match w.fault? cs with
  | none => .ok (w.length cs)
  | some f => .error (.encoding f)

/-- The container that encoded characters are returned in. -/
def container : Width → Container
  | narrow => .bytes
  | wide16 => .units16
  | wide32 => .units32

/-- The text of this width with these characters. -/
def encodeText (w : Width) (cs : Chars) : Except Failure Text :=
  return w.container.pack (← w.encode cs)

end Width

namespace Text

def decode (t : Text) : Except Failure Chars :=
  match t.container with
  | .chars => .ok t.unitChars
  | .bytes | .byteBuffer | .units8 => .ok (Utf8.decode t.units)
  | .units16 => .ok (Utf16.decode t.units)
  | .units32 => t.unitString

theorem decode_ofChars (cs : Chars) : (ofChars cs).decode = .ok cs :=
  congrArg Except.ok (unitChars_ofChars cs)

/-- The text with these characters in a container of the kind given. -/
def encodeLike (cs : Chars) (k : Container) : Except Failure Text :=
  match k with
  | .chars => .ok (ofChars cs)
  | k => return k.pack (← k.width.encode cs)

end Text

end UnitText
