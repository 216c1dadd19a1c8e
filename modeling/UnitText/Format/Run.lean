import UnitText.Format.Text
import UnitText.Template.Scan

/-!
# Formatting

A formatter holds a template. A run of it consumes values from left to right, one for each star and
one for each conversion but the percent sign, and collects output. What the count conversions
store is kept in the run, and the caller keeps it from one run to the next.

## Main definitions

- `Formatter` — a template, decoded
- `Run` — the state of a run
- `Formatter.execute` — formats; a run may be executed again, and goes on from what it has
- `Formatter.format` — the output of a fresh run, in the container of the template

## Design notes

An action that fails keeps the state of the run at that point, because a caller can still see what
was consumed and stored.
-/

namespace UnitText

/-- Which length modifiers a conversion takes. -/
def Kind.takes (k : Kind) (m : Length) : Bool :=
  match k with
  | .integer _ | .count => true
  | .float _ _ => m == .none || m == .l || m == .bigL
  | .char | .string => m == .none || m == .l
  | .pointer | .percent => m == .none

/-- What a run reports to its observers. -/
inductive Event where
  | formatting (s : Specifier) (described : Option String)
  | stored (s : Specifier) (described : String) (value result : Int)
  | unused (count : Nat)
deriving DecidableEq

inductive Phase where
  | scanning
  | done
  | failed
deriving DecidableEq

def Phase.name : Phase → String
  | scanning => "SCANNING_LITERAL"
  | done => "DONE"
  | failed => "ERROR"

structure Run where
  pending : List Value
  slots : Slots := []
  used : Nat := 0
  /-- The pieces of output, the last one first. -/
  pieces : List Piece := []
  /-- The number of code units in all output. -/
  written : Nat := 0
  phase : Phase := .scanning
  /-- What was reported, the last event first. -/
  events : List Event := []
deriving DecidableEq

/-- Actions on a run. An action that fails leaves the run as it was at that point. -/
abbrev RunM := EStateM Failure Run

namespace Run

def output (r : Run) : List Piece := r.pieces.reverse

/-- The result of a computation that leaves the run alone. -/
def attempt {α : Type} : Except Failure α → RunM α
  | .ok a => pure a
  | .error e => throw e

/-- The run with one more piece of output, which takes a number of units. -/
def emitted (p : Piece) (length : Nat) (r : Run) : Run :=
  { r with pieces := p :: r.pieces, written := r.written + length }

/-- Adds a piece of output. Empty pieces are not kept. -/
def emit (w : Width) (p : Piece) : RunM Unit := do
  if !(← attempt p.isEmpty) then
    let n ← attempt (p.length w)
    modify (emitted p n)

def report (e : Event) : RunM Unit := modify fun r => { r with events := e :: r.events }

/-- Consumes a value for a specifier. -/
def next (s : Specifier) : RunM Value := do
  let r ← get
  match r.pending with
  | [] => throw (.problem (.notEnoughArguments s (r.used + 1)))
  | v :: rest =>
    set { r with pending := rest, used := r.used + 1 }
    return v

/-- Consumes a value and adapts it. It holds what was stored so far. -/
def nextArgument (s : Specifier) : RunM Argument := do
  let v ← next s
  attempt (v.refresh (← get).slots).adapt

/-- The number for a width or a precision; a star consumes a value. -/
def resolve (s : Specifier) (role : StarRole) : Option Count → RunM (Option Int)
  | none => return none
  | some (.number n) => return some n
  | some .star => do
    let a ← nextArgument s
    return some (← attempt (a.starValue s role))

/-- What is reported about an integer that storing changes. -/
def storedEvent? (s : Specifier) (a : Argument) : Option Event :=
  match s.kind, a.family, a.value.toInteger with
  | .integer _, .integer, .ok n =>
    let result := Field.stored s n
    if result = n then none else some (.stored s a.description n result)
  | _, _, _ => none

/-- The run after the number of units written was stored under a name. -/
def stored (name : String) (r : Run) : Run := { r with slots := (name, r.written) :: r.slots }

def convert (f : Field) (a : Argument) : RunM Unit := do
  report (.formatting f.spec (some a.description))
  match storedEvent? f.spec a with
  | some e => report e
  | none => pure ()
  let p ← attempt (f.render a)
  match f.spec.kind, a.value.place? with
  | .count, some name => modify (stored name)
  | _, _ => pure ()
  emit f.charWidth p

/-- Applies a specifier. A run that has come to its end takes no more of them. -/
def apply (w : Width) (s : Specifier) : RunM Unit := do
  let phase := (← get).phase
  if phase ≠ .scanning then
    throw (.defect (.unexpectedState phase.name))
  if !s.kind.takes s.length then
    throw (.problem (.lengthNotAllowed s))
  let width ← resolve s .width s.width
  let precision ← resolve s .precision s.precision
  if s.kind = .percent then
    report (.formatting s none)
    emit w (.chars (← attempt (Field.create s width precision w (← get).written).percent))
  else
    let a ← nextArgument s
    convert (Field.create s width precision w (← get).written) a

def step (w : Width) : Token → RunM Unit
  | .literal cs _ => emit w (.chars cs)
  | .specifier s => apply w s

/-- The run after a failure: its output is given up. -/
def fail (r : Run) : Run := { r with pieces := [], phase := .failed }

/-- The run after the end of the template. -/
def finish (r : Run) : Run where
  pending := r.pending
  slots := r.slots
  used := r.used
  pieces := r.pieces
  written := r.written
  phase := .done
  events := if r.pending = [] then r.events else .unused r.pending.length :: r.events

end Run

/-- A template, decoded. -/
structure Formatter where
  container : Container
  template : Chars
deriving DecidableEq

namespace Formatter

def create (template : Text) : Except Failure Formatter :=
  return { container := template.container, template := ← template.decode }

def quoted (f : Formatter) : String := "<Formatter " ++ f.template.quoted ++ ">"

def width (f : Formatter) : Width := f.container.width

/-- Applies the tokens of a template, and fails where the scan of it did. -/
def run (f : Formatter) : RunM Unit := do
  let scan := Scan.ofChars f.template
  scan.tokens.forM (Run.step f.width)
  match scan.failure with
  | some e => throw e
  | none => pure ()

/-- Formats. The values and the output so far are those of the run. Output that cannot be joined
does not make the run fail, which has come to its end by then. -/
def execute (f : Formatter) (r : Run) : Except Failure Chars × Run :=
  match f.run r with
  | .ok _ r => (Piece.join r.output, r.finish)
  | .error e r => (.error e, r.fail)

/-- Formats values: the output in the container of the template, and the run. -/
def format (f : Formatter) (slots : Slots) (values : List Value) : Except Failure Text × Run :=
  let (result, r) := f.execute { pending := values, slots }
  (result >>= (Text.encodeLike · f.container), r)

end Formatter

end UnitText
