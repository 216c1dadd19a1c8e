import UnitText.CodePoint
import UnitText.Unicode

/-!
# Reading command lines

A command line is a list of words: options, which begin with a hyphen, and others. An option may be
shortened as long as it stays unique, its value may be attached to it, and several short options may
share a hyphen. Behind two hyphens, which stand alone, no word is an option.

## Main definitions

- `Grammar` — the options and the places of a command line
- `Grammar.read` — what a command line says, step by step

## Design notes

A command line is read step by step because the first step that ends the program decides how it
ends: a request for help before a mistake is granted.
-/

namespace UnitText

namespace Command

/-- An option of a command line. -/
structure OptionRule where
  names : List String
  takesValue : Bool := false
deriving DecidableEq

/-- How many words go to a place. -/
inductive Arity where
  | one
  /-- All words up to the next option. -/
  | many
  /-- At least one word, and all words behind it. -/
  | rest
deriving DecidableEq

/-- The options and the places of a command line. -/
structure Grammar where
  options : List OptionRule
  /-- The places for words that are no options, in order. -/
  places : List Arity
deriving DecidableEq

/-- A step of reading a command line. -/
inductive ReadStep where
  /-- An option, by its first name, with its value. A value that is two hyphens is taken away. -/
  | option (name : String) (value : Option Chars)
  /-- Words for the next place. -/
  | place (words : List Chars)
  /-- Words that go nowhere. -/
  | unrecognized
  /-- A mistake that ends the reading. -/
  | mistake
deriving DecidableEq

/-- A word, as it looks by itself. -/
inductive Word where
  /-- No option. -/
  | plain (cs : Chars)
  /-- The two hyphens that end the options. -/
  | hyphens
  /-- An option by its full name, and the value attached to it. -/
  | option (rule : OptionRule) (isLong : Bool) (attached : Option Chars)
  /-- A word that looks like an option and is none. -/
  | unknown (cs : Chars)
deriving DecidableEq

namespace Word

/-- The word as it was written, for one that is no option. -/
def chars : Word → Chars
  | plain cs => cs
  | hyphens => Chars.ofString "--"
  | option _ _ _ => []
  | unknown cs => cs

def isOption : Word → Bool
  | option _ _ _ => true
  | unknown _ => true
  | _ => false

end Word

/-- Digits, then perhaps a line end. -/
def endsInDigits (cs : Chars) : Bool :=
  let body := if cs.getLast? = some (CodePoint.ofChar '\n') then cs.dropLast else cs
  body ≠ [] && body.all CodePoint.isDigit

def isNegativeNumber : Chars → Bool
  | c :: cs =>
    c = '-' && (endsInDigits cs ||
      match cs.dropWhile CodePoint.isDigit with
      | point :: fraction => point = '.' && endsInDigits fraction
      | [] => false)
  | [] => false

/-- A word up to its first equals sign, and what follows the sign. -/
def splitAtEquals (cs : Chars) : Chars × Option Chars :=
  match cs.dropWhile (· ≠ CodePoint.ofChar '=') with
  | [] => (cs, none)
  | _ :: value => (cs.takeWhile (· ≠ CodePoint.ofChar '='), some value)

namespace Grammar

/-- All names of options, each with its option. -/
def names (g : Grammar) : List (Chars × OptionRule) :=
  g.options.flatMap fun o => o.names.map fun n => (Chars.ofString n, o)

/-- The option with exactly this name. -/
def named? (g : Grammar) (cs : Chars) : Option OptionRule := g.names.lookup cs

/-- The options that a word beginning with two hyphens may be short for. -/
def longMatches (g : Grammar) (cs : Chars) : List Word :=
  let (start, attached) := splitAtEquals cs
  (g.names.filter fun n => start.isPrefixOf n.1).map fun n => .option n.2 true attached

/-- The options that a word beginning with one hyphen may be: a short one with more attached to it,
or one that the word is short for. -/
def shortMatches (g : Grammar) (cs : Chars) : List Word :=
  g.names.filterMap fun n =>
    if n.1 = cs.take 2 then some (.option n.2 false (some (cs.drop 2)))
    else if cs.isPrefixOf n.1 then some (.option n.2 false none)
    else none

/-- Whether a word begins with two hyphens. -/
def isLongName (cs : Chars) : Bool := (Chars.ofString "--").isPrefixOf cs

/-- The word as it looks by itself, or `none` if it may be several options. -/
def classify (g : Grammar) (cs : Chars) : Option Word :=
  match cs with
  | [] => some (.plain [])
  | [c] => some (.plain [c])
  | c :: _ =>
    if c ≠ '-' then
      some (.plain cs)
    else
      let long := isLongName cs
      let (start, attached) := splitAtEquals cs
      match g.named? cs, g.named? start with
      | some o, _ => some (.option o long none)
      | none, some o => some (.option o long attached)
      | none, none =>
        match if long then g.longMatches cs else g.shortMatches cs with
        | [w] => some w
        | _ :: _ => none
        | [] =>
          if isNegativeNumber cs ∨ cs.contains (CodePoint.ofChar ' ') then some (.plain cs)
          else some (.unknown cs)

/-- The words of a command line as they look by themselves. -/
def classifyAll (g : Grammar) : List Chars → Option (List Word)
  | [] => some []
  | cs :: rest =>
    if cs = Chars.ofString "--" then
      some (.hyphens :: rest.map .plain)
    else do
      let w ← g.classify cs
      return w :: (← classifyAll g rest)

/-- The words for a place at the beginning of a command line, and the words behind them. -/
def takePlace (spelled : List Chars) (words : List Word) : Arity → Option (List Chars × Nat)
  | .one =>
    let hyphens := (words.takeWhile (· = .hyphens)).length
    match words.drop hyphens with
    | .plain _ :: behind =>
      let n := hyphens + 1 + (behind.takeWhile (· = .hyphens)).length
      some ((spelled.take n).erase (Chars.ofString "--"), n)
    | _ => none
  | .many =>
    let n := (words.takeWhile (!·.isOption)).length
    some ((spelled.take n).erase (Chars.ofString "--"), n)
  | .rest =>
    match words.dropWhile (· = .hyphens) with
    | .plain _ :: _ => some (spelled, words.length)
    | _ => none

/-- Fills as many places as the words at the beginning of a command line can fill, one after the
other: the steps, the places left, and the number of words used. -/
def fillPlaces (spelled : List Chars) (words : List Word) :
    List Arity → List ReadStep × List Arity × Nat
  | [] => ([], [], 0)
  | a :: places =>
    match takePlace spelled words a with
    | none => ([], a :: places, 0)
    | some (taken, n) =>
      let r := fillPlaces (spelled.drop n) (words.drop n) places
      (.place taken :: r.1, r.2.1, n + r.2.2)

/-- The step for an option, which is known by its first name. -/
def optionStep (o : OptionRule) (value : Option Chars) : ReadStep :=
  .option (o.names.headD "") (value.filter (· ≠ Chars.ofString "--"))

/-- The options that share a hyphen: one without a value, and the options attached to it in the same
word. If the last of them needs a value, it is returned by itself. There must be something attached,
and what is attached must be options. -/
def bundle (g : Grammar) (o : OptionRule) : Chars → Option (List ReadStep × Option OptionRule)
  | [] => none
  | c :: attached =>
    if o.takesValue then
      some ([optionStep o (some (c :: attached))], none)
    else
      match g.named? [CodePoint.ofChar '-', c], attached with
      | none, _ => none
      | some next, [] =>
        if next.takesValue then some ([optionStep o none], some next)
        else some ([optionStep o none, optionStep next none], none)
      | some next, attached =>
        (bundle g next attached).map fun r => (optionStep o none :: r.1, r.2)

/-- The steps for an option whose value is the next word, and whether that word is used. -/
def withNext (o : OptionRule) : Option Word → List ReadStep × Bool
  | some (.plain cs) => ([optionStep o (some cs)], true)
  | _ => ([.mistake], false)

def readOption (g : Grammar) (o : OptionRule) (isLong : Bool) (attached : Option Chars)
    (next : Option Word) : List ReadStep × Bool :=
  match attached with
  | none => if o.takesValue then withNext o next else ([optionStep o none], false)
  | some value =>
    if o.takesValue then
      ([optionStep o (some value)], false)
    else if isLong then
      ([.mistake], false)
    else
      match bundle g o value with
      | none => ([.mistake], false)
      | some (steps, none) => (steps, false)
      | some (steps, some last) =>
        match withNext last next with
        | (_, false) => ([.mistake], false)
        | (step, true) => (steps ++ step, true)

/-- Reads words, of which the first `skip` have been used. -/
def readWords (g : Grammar) (skip : Nat) (places : List Arity) (spelled : List Chars) :
    List Word → List ReadStep
  | [] => if places = [] then [] else [.mistake]
  | w :: words =>
    match skip with
    | skip + 1 => readWords g skip places spelled.tail words
    | 0 =>
      match w with
      | .unknown _ => .unrecognized :: readWords g 0 places spelled.tail words
      | .option o isLong attached =>
        let r := g.readOption o isLong attached words.head?
        r.1 ++ readWords g (if r.2 then 1 else 0) places spelled.tail words
      | w =>
        let r := fillPlaces spelled (w :: words) places
        if r.2.2 = 0 then
          .unrecognized :: readWords g 0 places spelled.tail words
        else
          r.1 ++ readWords g (r.2.2 - 1) r.2.1 spelled.tail words

/-- What a command line says, step by step. -/
def read (g : Grammar) (argv : List Chars) : List ReadStep :=
  match g.classifyAll argv with
  | none => [.mistake]
  | some words => g.readWords 0 g.places argv words

end Grammar

end Command

end UnitText
