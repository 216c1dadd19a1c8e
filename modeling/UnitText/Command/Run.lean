import UnitText.Command.Request
import UnitText.Context
import UnitText.Format.Run
import UnitText.Numeral.Parse
import UnitText.Text.Search
import UnitText.Value.Split

/-!
# Commands

A command prints its result, a line for each item. A problem is shown on the error output instead,
with the place in the template where it was found, if there is one. Reports go to the error output.

Words of a command line that are no UTF-8 hold surrogates in place of their bytes. The output takes
no surrogates, so printing them fails; the error output escapes them.

## Main definitions

- `Outcome` — how a command line ends
- `print` — what is printed of lines, and the failure that ends the printing
- `run` — carries out a command line
-/

namespace UnitText

namespace Command

/-- How a command line ends. -/
inductive Outcome where
  /-- With a status, after output and error output. -/
  | ended (status : Nat) (output errors : Chars)
  /-- With a status, because the command line was no request. -/
  | usage (status : Nat)
  /-- With a failure that is no problem of the caller's, after output. -/
  | failed (e : Failure) (output : Chars)
deriving DecidableEq

def eventLine : Event → Chars
  | .formatting s described =>
    Chars.ofString ("DEBUG xstrings.driver: Formatting " ++ s.text ++ " at offset " ++ s.place ++
      " with " ++ described.getD "no argument")
  | .stored s described value result =>
    Chars.ofString ("DEBUG xstrings.args: Converted " ++ described ++ " " ++ Integer.text value ++
      " to " ++ Integer.text result ++ " for " ++ s.text)
  | .unused n =>
    Chars.ofString ("DEBUG xstrings.driver: Ignoring " ++ n.repr ++ " unused argument(s).")

/-- The report that a template is about to be formatted. -/
def formattingLine (template : Chars) (count : Nat) : Chars :=
  Chars.ofString ("INFO xstrings.cli: Formatting " ++ template.quoted ++ " with " ++ count.repr ++
    " argument(s)")

/-- What a command gives: the lines of its result or why there are none, and the lines of its
reports. -/
structure Response where
  /-- The lines of the result. -/
  result : Except Failure (List Chars)
  /-- The lines of the reports. -/
  reports : List Chars := []

/-- Formats arguments, each as the most specific value that it writes. -/
def format (verbosity : Nat) (template : Chars) (arguments : List Chars) : Response :=
  match arguments.mapM fun cs => autoValue (.ofChars cs) with
  | .error e => { result := .error e }
  | .ok values =>
    let f : Formatter := { container := .chars, template }
    let (result, r) := f.execute { pending := values }
    { result := result.map ([·])
      reports :=
        (if 1 ≤ verbosity then [formattingLine template values.length] else []) ++
          (if 2 ≤ verbosity then r.events.reverse.map eventLine else []) }

/-- The value of an option that was perhaps taken away. -/
def optionValue : Option CodePoint → Value
  | some c => .ofChars [c]
  | none => .emptyList

/-- The number of items at most, which has to be a number. -/
def itemCount : ItemLimit → Except Failure (Option Int)
  | .unlimited => .ok none
  | .atMost n => .ok (some n)
  | .takenAway => .error (.type (.notOrdered Value.emptyList.typeName "int"))

/-- The items of a split, each as a line. -/
def split (text : Chars) (separators : List (Option CodePoint)) (count : ItemLimit)
    (removeEmpty : Bool) : Except Failure (List Chars) := do
  let count ← itemCount count
  let items ← (Value.ofChars text).split (.list (separators.map optionValue)) count removeEmpty
  items.mapM Value.asChars

/-- The order of two texts as a number. -/
def orderText : Ordering → String
  | .lt => "-1"
  | .eq => "0"
  | .gt => "1"

def respond (i : Invocation) : Response :=
  match i.request with
  | .format template arguments => format i.verbosity template arguments
  | .split text separators count removeEmpty =>
    { result := split text separators count removeEmpty }
  | .compare a (some b) ignoreCase =>
    { result := do
        let order ← Text.compare ignoreCase (.ofChars a) (.ofChars b)
        return [Chars.ofString (orderText order)] }
  | .compare _ none _ => { result := .error (.type (.notText "list")) }
  | .lower text => { result := .ok [(Text.ofChars text).toLower.unitChars] }
  | .upper text => { result := .ok [(Text.ofChars text).toUpper.unitChars] }

/-- A problem as it is shown: in the template, if it was found there. -/
def problemLines (r : Request) (p : Problem) : List Chars :=
  let message := Chars.ofString p.message
  match r, p.offset with
  | .format template _, some offset => contextLines template offset message
  | _, _ => [Chars.ofString "error: " ++ message]

/-- What is printed of lines, one after the other, and the failure of the first line that holds
surrogates, if there is one. -/
def print : List Chars → Chars × Option Failure
  | [] => ([], none)
  | line :: lines =>
    match Utf8.surrogates? line with
    | some fault => ([], some (.encoding fault))
    | none => (line ++ [lineFeed] ++ (print lines).1, (print lines).2)

/-- Lines on the error output, with surrogates escaped. -/
def errorText (lines : List Chars) : Chars :=
  (unlines lines).flatMap fun c => if c.IsSurrogate then Chars.ofString c.escaped else [c]

def problemStatus : Nat := 1

def run (argv : List Chars) : Outcome :=
  match Invocation.ofArguments argv with
  | .error status => .usage status
  | .ok i =>
    let response := respond i
    match response.result with
    | .ok lines =>
      match print lines with
      | (output, none) => .ended 0 output (errorText response.reports)
      | (output, some e) => .failed e output
    | .error (.problem p) =>
      .ended problemStatus [] (errorText (response.reports ++ problemLines i.request p))
    | .error e => .failed e []

end Command

end UnitText
