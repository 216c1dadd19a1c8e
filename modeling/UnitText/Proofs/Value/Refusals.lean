import UnitText.Proofs.Value.Refresh

/-!
# Basic values and how they are refused

Numbers, texts, characters, truth values, addresses and count slots are the basic values. A
conversion that refuses one of them says so, and tells the place of its specifier. For that it shows
the value; so it fails in another way if the value is an integer of too many digits to be shown.

## Main definitions

- `Integer.IsTooLong` — an integer of too many digits to be shown
- `Value.isBasic`, `Argument.IsBasic` — basic values, and what they are adapted to
- `Specifier.Refuses` — how an argument of a basic value is refused

## Main statements

- `Value.isBasic_of_adapt` — what basic values are adapted to
- `Argument.IsBasic.failsOnly_check`, `Argument.IsBasic.failsOnly_starValue` — how arguments are
  refused
-/

namespace UnitText

/-- The integer has too many digits to be written. -/
def Integer.IsTooLong (n : Int) : Prop := 10 ^ digitLimit ≤ n.natAbs

theorem Integer.isTooLong_of_text? {n : Int} (h : text? n = none) : IsTooLong n := by
  unfold text? at h
  split at h
  · cases h
  · next hlt => exact Nat.le_of_not_lt hlt

/-! ## Basic values -/

/-- Texts, truth values, numbers, characters, addresses and count slots. -/
def Value.isBasic : Value → Bool
  | .text _ | .boolean _ _ | .integer _ | .machineInteger _ | .float _ | .machineFloat _
  | .none | .address _ | .cell _ _ | .slot _ _ => true
  | _ => false

/-- An argument whose value is of its family. -/
inductive Argument.IsBasic : Argument → Prop where
  | boolean (b : Bool) : IsBasic { family := .boolean, value := .boolean b false }
  | integer (n : Int) (bits : Option Nat) (signed : Bool) :
    IsBasic { family := .integer, value := .integer n, bits, signed }
  | float (x : Double) (bits : Option Nat) : IsBasic { family := .float, value := .float x, bits }
  | address (n : Int) (bits : Option Nat) (signed : Bool) :
    IsBasic { family := .address, value := .integer n, bits, signed }
  | text (cs : Chars) : IsBasic { family := .text, value := .ofChars cs }
  | character (cs : Chars) (bits : Option Nat) :
    IsBasic { family := .character, value := .ofChars cs, bits }
  | slot (name : String) (holds : Option Nat) :
    IsBasic { family := .slot, value := .slot name holds }

theorem Variable.isBasic_adapt (x : Variable) : x.adapt.IsBasic := by
  cases x with
  | integer x => exact .integer x.value _ _
  | float x => exact .float x.value _
  | byte | character => exact .character _ _
  | pointer n => exact .address n _ _

/-- An integer that a variable holds can be shown. -/
theorem Variable.not_isTooLong {x : Variable} {n : Int} (h : x.adapt.value = .integer n) :
    ¬Integer.IsTooLong n := by
  have hle : n.natAbs ≤ 2 ^ 64 := by
    cases x with
    | integer x =>
      obtain rfl := Value.integer.inj h
      exact x.natAbs_le
    | pointer k =>
      obtain rfl := Value.integer.inj h
      omega
    | _ => cases h
  exact Nat.not_le_of_lt (Integer.lt_limit_of_le hle)

namespace Value

variable {v : Value} {slots : Slots} {a : Argument} {n : Int}

theorem isBasic_of_adapt (hv : v.isBasic) (ha : (v.refresh slots).adapt = .ok a) : a.IsBasic := by
  cases v with
  | text t =>
    obtain ⟨cs, -, ha⟩ := bind_eq_ok.1 ha
    obtain rfl := pure_eq_ok.1 ha
    exact .text cs
  | boolean b isElement =>
    obtain rfl := Except.ok.inj ha
    exact .boolean b
  | integer n =>
    obtain rfl := Except.ok.inj ha
    exact .integer n _ _
  | machineInteger x =>
    obtain rfl := Except.ok.inj ha
    exact .integer x.value _ _
  | float x =>
    obtain rfl := Except.ok.inj ha
    exact .float x _
  | machineFloat x =>
    obtain rfl := Except.ok.inj ha
    exact .float x.value _
  | none =>
    obtain rfl := Except.ok.inj ha
    exact .address 0 _ _
  | address n =>
    obtain rfl := Except.ok.inj ha
    exact .address n _ _
  | cell name x =>
    obtain rfl := Except.ok.inj ha
    exact Variable.isBasic_adapt _
  | slot name holds =>
    obtain rfl := Except.ok.inj ha
    exact .slot name _
  | _ => cases hv

/-- An integer that is too long to be shown is the same whatever was stored. -/
theorem adapt_of_isTooLong (hv : v.isBasic) (ha : (v.refresh slots).adapt = .ok a)
    (hvalue : a.value = .integer n) (hn : Integer.IsTooLong n) : v.adapt = .ok a := by
  cases v with
  | slot name holds =>
    obtain rfl := Except.ok.inj ha
    cases hvalue
  | cell name x =>
    obtain rfl := Except.ok.inj ha
    exact absurd hn (Variable.not_isTooLong hvalue)
  | object | argument => cases hv
  | _ => exact ha

theorem failsOnly_integerText {P : Failure → Prop}
    (h : Integer.IsTooLong n → P (.value .tooLongToWrite)) : FailsOnly P (integerText n) := by
  unfold integerText
  cases htext : Integer.text? n with
  | some s => exact failsOnly_ok
  | none => exact failsOnly_error (h (Integer.isTooLong_of_text? htext))

end Value

/-! ## Refusals -/

/-- How the conversion of a specifier refuses an argument of a basic value: with a mismatch that
tells the place of the specifier, unless the argument is an integer or an address of too many digits
to be shown. -/
inductive Specifier.Refuses (s : Specifier) (a : Argument) : Failure → Prop where
  | mismatch {p : Problem} (hcategory : p.category = .kindMismatch)
    (hoffset : p.offset = s.offset) : Refuses s a (.problem p)
  | oversized {n : Int} (hvalue : a.value = .integer n)
    (hn : Integer.IsTooLong n) : Refuses s a (.value .tooLongToWrite)

namespace Argument

variable {a : Argument} {s : Specifier}

/-- An argument of a basic value can be shown, or it is an integer of too many digits. -/
theorem IsBasic.failsOnly_quoted (ha : a.IsBasic) (s : Specifier) :
    FailsOnly (s.Refuses a) a.quoted := by
  cases ha with
  | integer n | address n =>
    rw [quoted, Value.quoted]
    exact Value.failsOnly_integerText fun hn => .oversized rfl hn
  | boolean | float | text | character | slot => exact failsOnly_ok

theorem IsBasic.exists_suits (ha : a.IsBasic) (k : Kind) : ∃ b, a.suits k = .ok b := by
  cases ha with
  | text cs => cases k <;> exact ⟨_, rfl⟩
  | _ => cases k <;> exact ⟨_, rfl⟩

theorem IsBasic.failsOnly_check (ha : a.IsBasic) : FailsOnly (s.Refuses a) (a.check s) := by
  obtain ⟨b, hb⟩ := ha.exists_suits s.kind
  rw [check, hb]
  cases b with
  | true => exact failsOnly_pure
  | false => exact (ha.failsOnly_quoted s).bind fun q _ => failsOnly_error (.mismatch rfl rfl)

/-- An argument that does not suit a conversion is refused. -/
theorem IsBasic.exists_check_eq_error (ha : a.IsBasic) (hsuits : a.suits s.kind = .ok false) :
    ∃ e, s.Refuses a e ∧ a.check s = .error e := by
  cases hcheck : a.check s with
  | error e => exact ⟨e, ha.failsOnly_check e hcheck, rfl⟩
  | ok u =>
    rw [check_eq_ok, hsuits] at hcheck
    cases hcheck

theorem IsBasic.failsOnly_starValue (ha : a.IsBasic) (role : StarRole) :
    FailsOnly (s.Refuses a) (a.starValue s role) := by
  rw [starValue]
  split
  · next hfamily =>
    cases ha with
    | integer n => exact failsOnly_ok
    | boolean | float | address | text | character | slot => cases hfamily
  · exact (ha.failsOnly_quoted s).bind fun q _ => failsOnly_error (.mismatch rfl rfl)

/-- A star refuses an argument that is no integer. -/
theorem IsBasic.exists_starValue_eq_error (ha : a.IsBasic) (role : StarRole)
    (hfamily : a.family ≠ .integer) : ∃ e, s.Refuses a e ∧ a.starValue s role = .error e := by
  cases hstar : a.starValue s role with
  | error e => exact ⟨e, ha.failsOnly_starValue role e hstar, rfl⟩
  | ok n => exact absurd (starValue_eq_ok.1 hstar).1 hfamily

end Argument

end UnitText
