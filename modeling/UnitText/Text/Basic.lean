import UnitText.Failure

/-!
# Text in code units

A text is a container and the code units in it. Two containers of one width hold the same texts; an
operation that gives a text gives it in the container it was handed.

## Main definitions

- `Container` — the containers, each with the width of its units
- `Text` — a container with units that fit it
- `Text.unitString` — one character for each unit, the view that comparing and searching work on

## Design notes

Units are natural numbers, and that they fit the container is a field of the text. So an operation
on units is one function for all containers.
-/

namespace UnitText

/-- The containers of text. -/
inductive Container where
  /-- A string of code points, one unit each. -/
  | chars
  /-- An immutable sequence of bytes. -/
  | bytes
  /-- A mutable sequence of bytes. -/
  | byteBuffer
  | units8
  | units16
  | units32
deriving DecidableEq

namespace Container

/-- The width of the units in a container. -/
def width : Container → Width
  | chars => .wide32
  | bytes => .narrow
  | byteBuffer => .narrow
  | units8 => .narrow
  | units16 => .wide16
  | units32 => .wide32

/-- Every unit in a container is below this number. -/
def unitLimit : Container → Nat
  | chars => 0x110000
  | k => k.width.unitLimit

theorem unitLimit_pos (k : Container) : 0 < k.unitLimit := by
  cases k <;> decide

theorem le_unitLimit (k : Container) : 0x100 ≤ k.unitLimit := by
  cases k <;> decide

end Container

/-- A text: a container, and units that fit it. -/
@[ext] structure Text where
  container : Container
  units : List Nat
  units_lt : ∀ u ∈ units, u < container.unitLimit
deriving DecidableEq

/-- The text of these units in a container, each unit reduced to what the container can hold. -/
def Container.pack (k : Container) (units : List Nat) : Text where
  container := k
  units := units.map (· % k.unitLimit)
  units_lt := by
    intro u hu
    obtain ⟨v, _, rfl⟩ := List.mem_map.1 hu
    exact Nat.mod_lt _ k.unitLimit_pos

@[simp] theorem Container.container_pack (k : Container) (us : List Nat) :
    (k.pack us).container = k := rfl

/-- Units that fit are packed as they are. -/
theorem Container.units_pack {k : Container} {us : List Nat} (h : ∀ u ∈ us, u < k.unitLimit) :
    (k.pack us).units = us := by
  have e : us.map (· % k.unitLimit) = us.map id :=
    List.map_congr_left fun u hu => Nat.mod_eq_of_lt (h u hu)
  simpa [pack] using e

namespace Text

/-- The width of the units of a text. -/
def width (t : Text) : Width := t.container.width

/-- The string of these code points. -/
def ofChars (cs : Chars) : Text where
  container := .chars
  units := cs.map CodePoint.val
  units_lt := by
    intro u hu
    obtain ⟨c, _, rfl⟩ := List.mem_map.1 hu
    exact c.val_lt

/-- The string with the characters of a string literal. -/
def ofString (s : String) : Text := ofChars (Chars.ofString s)

/-- The text with other units, each replaced by one that fits the container. -/
def mapUnits (t : Text) (f : Nat → Nat)
    (h : ∀ u, u < t.container.unitLimit → f u < t.container.unitLimit) : Text where
  container := t.container
  units := t.units.map f
  units_lt := by
    intro u hu
    obtain ⟨v, hv, rfl⟩ := List.mem_map.1 hu
    exact h v (t.units_lt v hv)

/-- The character that a unit is when it is read as a code point. -/
def readUnit (u : Nat) : Except Failure CodePoint :=
  match CodePoint.ofNat? u with
  | some c => .ok c
  | none => .error (if u < 2 ^ 31 then .value .unitNotCharacter else .range .character)

/-- The character with this number, used as a separator or on its own. -/
def readNumber (u : Nat) : Except Failure CodePoint :=
  match CodePoint.ofNat? u with
  | some c => .ok c
  | none => .error (if u < 2 ^ 31 then .value .numberNotCharacter else .range .character)

/-- One character for each unit of the text. There is none for units beyond the code points. -/
def unitString (t : Text) : Except Failure Chars := t.units.mapM readUnit

/-- The characters of a string, read off its units. -/
def unitChars (t : Text) : Chars := t.units.map CodePoint.ofNat

/-- The characters outside one byte: the first of them, and the run they stand in. -/
def latin1Fault? (cs : Chars) : Option EncodingFault :=
  let start := (cs.takeWhile (·.val < 0x100)).length
  match cs.drop start with
  | [] => none
  | c :: rest =>
    some { codec := .latin1, character := c, start
           stop := start + 1 + (rest.takeWhile (0x100 ≤ ·.val)).length }

/-- The text with one unit for each character, in a container of the kind given. -/
def ofUnitString (cs : Chars) (k : Container) : Except Failure Text :=
  match k with
  | .chars => .ok (ofChars cs)
  | .bytes | .byteBuffer =>
    match latin1Fault? cs with
    | none => .ok (k.pack (cs.map CodePoint.val))
    | some f => .error (.encoding f)
  | .units8 | .units16 | .units32 =>
    match cs.find? (k.unitLimit ≤ ·.val) with
    | none => .ok (k.pack (cs.map CodePoint.val))
    | some c => .error (.range (.unit c.val ("uint" ++ k.width.bits.repr)))

/-- The units of a text in a container of another kind. An array and a sequence of bytes keep of a
unit what they can hold; a string holds code points only. -/
def repack (t : Text) (k : Container) : Except Failure Text :=
  match k with
  | .chars => return ofChars (← t.units.mapM readNumber)
  | k => .ok (k.pack t.units)

@[simp] theorem container_ofChars (cs : Chars) : (ofChars cs).container = .chars := rfl

@[simp] theorem units_ofChars (cs : Chars) : (ofChars cs).units = cs.map CodePoint.val := rfl

@[simp] theorem container_mapUnits (t : Text) (f : Nat → Nat) (h) :
    (t.mapUnits f h).container = t.container := rfl

@[simp] theorem units_mapUnits (t : Text) (f : Nat → Nat) (h) :
    (t.mapUnits f h).units = t.units.map f := rfl

@[simp] theorem unitChars_ofChars (cs : Chars) : (ofChars cs).unitChars = cs := by
  simp [unitChars, Function.comp_def]

theorem ofChars_inj {cs ds : Chars} : ofChars cs = ofChars ds ↔ cs = ds := by
  refine ⟨fun h => ?_, congrArg ofChars⟩
  rw [← unitChars_ofChars cs, h, unitChars_ofChars]

end Text

end UnitText
