import UnitText.Command.Arguments
import UnitText.Numeral.Word

/-!
# Requests

What a command line asks for: one of five commands, and how much is to be reported about it.

## Main definitions

- `Request`, `Invocation`
- `Invocation.ofArguments` — what a command line asks for, or the status that ends the program
-/

namespace UnitText

namespace Command

/-- The number of items that are asked for. -/
inductive ItemLimit where
  /-- As many as there are. -/
  | unlimited
  /-- At most a number of them. -/
  | atMost (n : Int)
  /-- A number was asked for, but taken away. -/
  | takenAway
deriving DecidableEq

/-- A command with what it needs. -/
inductive Request where
  | format (template : Chars) (arguments : List Chars)
  /-- Splits a text. A separator is missing if it was taken away. -/
  | split (text : Chars) (separators : List (Option CodePoint)) (count : ItemLimit)
      (removeEmpty : Bool)
  /-- Compares two texts. The second is missing if its place was taken by two hyphens behind those
  that ended the options. -/
  | compare (a : Chars) (b? : Option Chars) (ignoreCase : Bool)
  | lower (text : Chars)
  | upper (text : Chars)
deriving DecidableEq

/-- A request, and how much is to be reported about it. -/
structure Invocation where
  /-- The number of times that more reports were asked for. -/
  verbosity : Nat
  request : Request
deriving DecidableEq

def helpOption : OptionRule := { names := ["--help", "-h"] }

/-- The words before the command, and the command with all that follows it. -/
def mainGrammar : Grammar where
  options := [helpOption, { names := ["--verbose", "-v"] }]
  places := [.rest]

/-- The words behind a command. -/
def commandGrammar? (command : Chars) : Option Grammar :=
  if command = Chars.ofString "format" then
    some { options := [helpOption], places := [.one, .many] }
  else if command = Chars.ofString "split" then
    some {
      options := [helpOption, { names := ["--separator", "-s"], takesValue := true },
        { names := ["--count", "-n"], takesValue := true }, { names := ["--remove-empty"] }]
      places := [.one] }
  else if command = Chars.ofString "compare" then
    some {
      options := [helpOption, { names := ["--ignore-case", "-i"] }]
      places := [.one, .one] }
  else if command = Chars.ofString "lower" ∨ command = Chars.ofString "upper" then
    some { options := [helpOption], places := [.one] }
  else
    none

def helpStatus : Nat := 0

def mistakeStatus : Nat := 2

/-- What the steps of a command line come to. -/
structure Collected where
  /-- How often more reports were asked for. -/
  verbosity : Nat := 0
  /-- The separators, in order, each with nothing in its place if it was taken away. -/
  separators : List (Option CodePoint) := []
  count : ItemLimit := .unlimited
  removeEmpty : Bool := false
  ignoreCase : Bool := false
  /-- The words in their places. -/
  places : List (List Chars) := []
  /-- Whether some words went nowhere. -/
  unrecognized : Bool := false
deriving DecidableEq

/-- Takes a step into account. Help and mistakes end the program with a status. -/
def Collected.add (c : Collected) : ReadStep → Except Nat Collected
  | .mistake => .error mistakeStatus
  | .unrecognized => .ok { c with unrecognized := true }
  | .place words => .ok { c with places := c.places ++ [words] }
  | .option name value =>
    match name, value with
    | "--verbose", _ => .ok { c with verbosity := c.verbosity + 1 }
    | "--separator", some [s] => .ok { c with separators := c.separators ++ [some s] }
    | "--separator", none => .ok { c with separators := c.separators ++ [none] }
    | "--count", some word =>
      match Integer.ofWord word.quoted word.asciiForm with
      | .ok n => .ok { c with count := .atMost n }
      | .error _ => .error mistakeStatus
    | "--count", none => .ok { c with count := .takenAway }
    | "--remove-empty", _ => .ok { c with removeEmpty := true }
    | "--ignore-case", _ => .ok { c with ignoreCase := true }
    | "--help", _ => .error helpStatus
    | _, _ => .error mistakeStatus

/-- The request for a command with what its words come to. -/
def Collected.request? (c : Collected) (command : Chars) : Option Request :=
  let isCommand (name : String) : Bool := command == Chars.ofString name
  match c.places with
  | [[template], arguments] => if isCommand "format" then some (.format template arguments)
    else if isCommand "compare" then some (.compare template arguments.head? c.ignoreCase)
    else none
  | [[text]] =>
    if isCommand "split" then some (.split text c.separators c.count c.removeEmpty)
    else if isCommand "lower" then some (.lower text)
    else if isCommand "upper" then some (.upper text)
    else none
  | _ => none

/-- What a command line asks for, or the status that ends the program. -/
def Invocation.ofArguments (argv : List Chars) : Except Nat Invocation := do
  let main ← (mainGrammar.read argv).foldlM Collected.add {}
  match main.places with
  | [command :: words] =>
    match commandGrammar? command with
    | none => throw mistakeStatus
    | some g =>
      let c ← (g.read words).foldlM Collected.add {}
      if main.unrecognized ∨ c.unrecognized then
        throw mistakeStatus
      match c.request? command with
      | some request => return { verbosity := main.verbosity, request }
      | none => throw mistakeStatus
  | _ => throw mistakeStatus

end Command

end UnitText
