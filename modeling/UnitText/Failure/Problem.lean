import UnitText.Quote
import UnitText.Template.Specifier
import UnitText.Width

/-!
# Problems

A problem is the caller's: a template, an argument, an index or a number that is not as it has to
be. Problems have a category and, where there is one, the offset at which they were found.

## Main definitions

- `Category` — the categories of problems
- `Problem` — what is wrong with what the caller gave
- `Report`, `Problem.report` — what is said of a problem
-/

namespace UnitText

inductive Category where
  | malformedTemplate
  | missingArgument
  | kindMismatch
  | indexOutOfRange
  | invalidNumber
deriving DecidableEq

/-- What is said of a problem of which no more is known. -/
def Category.text : Category → String
  | malformedTemplate => "Malformed format template"
  | missingArgument => "Missing argument"
  | kindMismatch => "Argument kind mismatch"
  | indexOutOfRange => "Index out of range"
  | invalidNumber => "Invalid number"

/-- What a star stands for. -/
inductive StarRole where
  | width
  | precision
deriving DecidableEq

/-- The role as messages name it. -/
def StarRole.text : StarRole → String
  | width => "width"
  | precision => "precision"

/-- A template, an argument, an index or a number that is not as it has to be. Arguments are kept as
their description and their quoted value. -/
inductive Problem where
  /-- A percent sign at `offset` that ends the template or comes before white space. -/
  | incompleteSpecifier (offset : Nat)
  /-- A percent sign at `offset` that begins no specifier. -/
  | invalidSpecifier (source : Chars) (offset : Nat)
  | lengthNotAllowed (spec : Specifier)
  /-- A specifier that needs argument number `number`, which is not there. -/
  | notEnoughArguments (spec : Specifier) (number : Nat)
  | cannotFormat (spec : Specifier) (described quoted : String)
  | starNotInteger (spec : Specifier) (role : StarRole) (described quoted : String)
  | tooLargeForFloat (spec : Specifier) (value : String)
  | notCharacter (spec : Specifier) (code : Nat)
  | notWritable (spec : Specifier) (character : CodePoint) (width : Width)
  | negativeLength (length : Int)
  /-- An index outside a text of `length` units. -/
  | indexOutside (index : Int) (length : Nat)
  | negativeCount (count : Int)
  /-- A text that stops being a number at `offset`. -/
  | notNumber (text : Chars) (offset : Nat)
  | notInteger (text : Chars)
deriving DecidableEq

structure Report where
  category : Category
  message : String
  /-- Where the problem was found. -/
  offset : Option Int := none
deriving DecidableEq

namespace Problem

def category : Problem → Category
  | incompleteSpecifier _ | invalidSpecifier _ _ | lengthNotAllowed _ => .malformedTemplate
  | notEnoughArguments _ _ => .missingArgument
  | cannotFormat _ _ _ | starNotInteger _ _ _ _ | tooLargeForFloat _ _ | notCharacter _ _
  | notWritable _ _ _ => .kindMismatch
  | negativeLength _ | indexOutside _ _ | negativeCount _ => .indexOutOfRange
  | notNumber _ _ | notInteger _ => .invalidNumber

def offset : Problem → Option Int
  | incompleteSpecifier n | invalidSpecifier _ n | notNumber _ n => some n
  | lengthNotAllowed s | notEnoughArguments s _ | cannotFormat s _ _ | starNotInteger s _ _ _
  | tooLargeForFloat s _ | notCharacter s _ | notWritable s _ _ => s.offset
  | negativeLength _ | indexOutside _ _ | negativeCount _ | notInteger _ => none

def message : Problem → String
  | incompleteSpecifier n => "Incomplete conversion specifier at offset " ++ n.repr
  | invalidSpecifier source n =>
    "Invalid conversion specifier " ++ source.quoted ++ " at offset " ++ n.repr
  | lengthNotAllowed s =>
    "Length modifier " ++ (Chars.ofString s.length.text).quoted ++ " cannot be used with %" ++
      String.singleton s.kind.letter ++ " at offset " ++ s.place
  | notEnoughArguments s n =>
    "Not enough arguments: " ++ s.text ++ " at offset " ++ s.place ++ " needs argument #" ++ n.repr
  | cannotFormat s described quoted =>
    s.text ++ " at offset " ++ s.place ++ " cannot format " ++ described ++ " " ++ quoted
  | starNotInteger s role described quoted =>
    s.text ++ " at offset " ++ s.place ++ " expects an integer " ++ role.text ++ ", got " ++
      described ++ " " ++ quoted
  | tooLargeForFloat s value =>
    value ++ " is too large for " ++ s.text ++ " at offset " ++ s.place
  | notCharacter s code =>
    "0x" ++ hexText 0 code ++ " is not a valid character for " ++ s.text
  | notWritable s c w =>
    s.text ++ " at offset " ++ s.place ++ " cannot write " ++ Chars.quoted [c] ++ " to " ++
      w.bits.repr ++ "-bit text"
  | negativeLength n => "Negative length: " ++ Integer.text n
  | indexOutside i n =>
    "Index " ++ Integer.text i ++ " out of range for text of length " ++ n.repr
  | negativeCount n => "Negative split count: " ++ Integer.text n
  | notNumber text n => "Invalid number " ++ text.quoted ++ " at offset " ++ n.repr
  | notInteger text => "Not an integer: " ++ text.quoted

def report (p : Problem) : Report where
  category := p.category
  message := p.message
  offset := p.offset

end Problem

end UnitText
