import UnitText.Argument.Text
import UnitText.Proofs.Result

/-!
# Values do not fail to be encoded

Reading a value, laying it out and quoting it can fail for many reasons, but none of them is that an
encoding lacks some characters: nothing is encoded before the units of characters are counted.

## Main definitions

- `FaultFree` — a computation does not fail because an encoding lacks characters

## Main statements

- `Value.faultFree_adapt`, `Value.faultFree_toInteger`, `Value.faultFree_toFloat`,
  `Value.faultFree_layout`, `Value.faultFree_render` — how conversions read values
-/

namespace UnitText

/-- A computation does not fail because an encoding lacks characters. -/
def FaultFree {α : Type} (x : Except Failure α) : Prop := ∀ fault, x ≠ .error (.encoding fault)

section

variable {α β : Type}

@[simp] theorem faultFree_ok {a : α} : FaultFree (.ok a) := nofun

@[simp] theorem faultFree_pure {a : α} : FaultFree (pure a) := nofun

@[simp] theorem faultFree_error {e : Failure} :
    FaultFree (.error e : Except Failure α) ↔ ∀ fault, e ≠ .encoding fault := by
  simp [FaultFree]

@[simp] theorem faultFree_throw {e : Failure} :
    FaultFree (throw e : Except Failure α) ↔ ∀ fault, e ≠ .encoding fault :=
  faultFree_error

theorem faultFree_iff_failsOnly {x : Except Failure α} :
    FaultFree x ↔ FailsOnly (fun e => ∀ fault, e ≠ .encoding fault) x := by
  constructor
  · rintro hx _ he fault rfl
    exact hx fault he
  · intro hx fault he
    exact hx _ he fault rfl

theorem FaultFree.bind {x : Except Failure α} {g : α → Except Failure β} (hx : FaultFree x)
    (hg : ∀ a, x = .ok a → FaultFree (g a)) : FaultFree (x >>= g) := by
  rw [faultFree_iff_failsOnly] at hx ⊢
  exact hx.bind fun a ha => faultFree_iff_failsOnly.1 (hg a ha)

theorem FaultFree.mapM {g : α → Except Failure β} (hg : ∀ a, FaultFree (g a)) (as : List α) :
    FaultFree (as.mapM g) := by
  induction as with
  | nil => exact faultFree_pure
  | cons a as ih =>
    rw [List.mapM_cons]
    exact (hg a).bind fun _ _ => ih.bind fun _ _ => faultFree_pure

end

/-! ## Numbers -/

theorem Decimal.faultFree_rounded (negative : Bool) (c : Nat) (e : Int) :
    FaultFree (rounded negative c e) := by
  unfold rounded
  split
  · exact faultFree_ok
  · -- only the size of the rounded number decides
    show FaultFree (if _ then .error (.signal .overflow) else .ok _)
    split <;> simp

theorem Decimal.faultFree_abs (d : Decimal) : FaultFree d.abs := by
  unfold abs quiet
  split
  · exact faultFree_rounded _ _ _
  · exact faultFree_ok
  · split <;> simp

theorem Decimal.faultFree_toDouble (d : Decimal) : FaultFree d.toDouble := by
  unfold toDouble
  split <;> simp

theorem Decimal.faultFree_places (n : Int) : FaultFree (places n) := by
  unfold places
  repeat' split
  all_goals simp

theorem Decimal.faultFree_isBelowZero (d : Decimal) : FaultFree d.isBelowZero := by
  unfold isBelowZero
  split <;> simp

theorem Decimal.faultFree_toInteger (d : Decimal) : FaultFree d.toInteger := by
  unfold toInteger
  split <;> simp

theorem Double.faultFree_toInteger (x : Double) : FaultFree x.toInteger := by
  unfold toInteger
  repeat' split
  all_goals simp

theorem Double.faultFree_ofInteger (n : Int) : FaultFree (ofInteger n) := by
  unfold ofInteger
  split <;> simp

theorem Integer.faultFree_ofWord (quoted : String) (cs : Chars) : FaultFree (ofWord quoted cs) := by
  simp only [ofWord]
  repeat' split
  all_goals simp

theorem Double.faultFree_ofWord (quoted : String) (cs : Chars) : FaultFree (ofWord quoted cs) := by
  simp only [ofWord]
  repeat' split
  all_goals simp

theorem faultFree_arrayTruth (bs : List Bool) : FaultFree (arrayTruth bs) := by
  unfold arrayTruth
  split <;> simp

/-! ## Texts of values -/

theorem Text.faultFree_decode (t : Text) : FaultFree t.decode := by
  unfold decode
  split
  case h_6 =>
    refine FaultFree.mapM (fun u => ?_) t.units
    unfold readUnit
    split
    · exact faultFree_ok
    · split <;> simp
  all_goals exact faultFree_ok

theorem Member.faultFree_number (m : Member) : FaultFree m.number := by
  unfold number
  split <;> simp

theorem Member.faultFree_text (m : Member) : FaultFree m.text := by
  unfold text
  split
  · exact faultFree_ok
  · exact m.faultFree_number

theorem Member.faultFree_plainText (m : Member) : FaultFree m.plainText := by
  unfold plainText
  split
  · exact m.faultFree_number
  · split
    · exact faultFree_ok
    · exact m.faultFree_number.bind fun _ _ => faultFree_pure

theorem Currency.faultFree_text (c : Currency) : FaultFree c.text := by
  refine c.amount.faultFree_abs.bind fun _ _ => ?_
  refine (Decimal.faultFree_places c.decimals).bind fun _ _ => ?_
  exact c.amount.faultFree_isBelowZero.bind fun _ _ => faultFree_pure

namespace Value

theorem faultFree_integerText (n : Int) : FaultFree (integerText n) := by
  unfold integerText
  split <;> simp

theorem faultFree_quoted (v : Value) : FaultFree v.quoted := by
  induction v with
  | integer n => exact faultFree_integerText n
  | address n => exact (faultFree_integerText n).bind fun _ _ => faultFree_pure
  | member m => exact m.faultFree_number.bind fun _ _ => faultFree_pure
  | argument family v bits signed domain ih => exact ih.bind fun _ _ => faultFree_pure
  | _ => exact faultFree_ok

theorem faultFree_plainText (v : Value) : FaultFree v.plainText := by
  unfold plainText
  split
  case h_6 m => exact m.faultFree_plainText.bind fun _ _ => faultFree_pure
  case h_12 => exact (faultFree_quoted _).bind fun _ _ => faultFree_pure
  case h_1 => split <;> exact faultFree_ok
  all_goals exact faultFree_ok

theorem faultFree_adapt (v : Value) : FaultFree v.adapt := by
  unfold adapt
  split
  case h_10 t => exact t.faultFree_decode.bind fun _ _ => faultFree_pure
  case h_12 => split <;> exact faultFree_ok
  all_goals exact faultFree_ok

/-! ## Values as numbers -/

theorem faultFree_toInteger (v : Value) : FaultFree v.toInteger := by
  unfold toInteger
  split
  · exact faultFree_ok
  · exact Double.faultFree_toInteger _
  · exact Integer.faultFree_ofWord _ _
  · exact Integer.faultFree_ofWord _ _
  · split
    · exact Decimal.faultFree_toInteger _
    · exact faultFree_ok
    · split <;> simp

theorem faultFree_numberOr (refused : TypeFault) (v : Value) : FaultFree (v.numberOr refused) := by
  unfold numberOr
  split
  · exact Double.faultFree_ofInteger _
  · exact faultFree_ok
  · exact Decimal.faultFree_toDouble _
  · split <;> simp

theorem faultFree_toReal (v : Value) : FaultFree v.toReal := v.faultFree_numberOr _

theorem faultFree_toFloat (v : Value) : FaultFree v.toFloat := by
  unfold toFloat
  split
  · exact Double.faultFree_ofWord _ _
  · exact v.faultFree_quoted.bind fun _ _ => Double.faultFree_ofWord _ _
  · exact v.faultFree_numberOr _

theorem faultFree_magnitude (v : Value) : FaultFree v.magnitude := by
  unfold magnitude
  split
  case h_5 d => exact d.faultFree_abs.bind fun _ _ => faultFree_pure
  case h_7 =>
    split
    · exact faultFree_ok
    · split <;> simp
  all_goals exact faultFree_ok

theorem faultFree_isZero (v : Value) : FaultFree v.isZero := by
  unfold isZero
  split
  · exact faultFree_ok
  · exact faultFree_ok
  · exact faultFree_arrayTruth _
  · split <;> simp

theorem faultFree_isTrue (v : Value) : FaultFree v.isTrue := by
  unfold isTrue
  split
  · exact faultFree_ok
  · exact faultFree_ok
  · exact faultFree_arrayTruth _
  · exact faultFree_ok
  · exact faultFree_ok

end Value

/-! ## Counts -/

theorem Variable.faultFree_stored (count : Nat) (x : Variable) : FaultFree (x.stored count) := by
  cases x with
  | float x => exact (Double.faultFree_ofInteger count).bind fun _ _ => faultFree_pure
  | byte b =>
    simp only [stored]
    split <;> simp
  | character c => exact faultFree_error.2 nofun
  | _ => exact faultFree_ok

theorem Value.faultFree_store (count : Nat) (v : Value) : FaultFree (v.store count) := by
  cases v with
  | cell name x => exact (x.faultFree_stored count).bind fun _ _ => faultFree_pure
  | object o =>
    simp only [store]
    split <;> simp [lacks]
  | _ => simp [store, lacks]

/-! ## Notations -/

theorem Integer.faultFree_layout (letter : Char) (n : Int) : FaultFree (layout letter n) := by
  unfold layout
  extract_lets signed
  have hsigned : ∀ digits, FaultFree (signed digits) := fun _ => faultFree_ok
  split
  case h_1 => exact (Double.faultFree_ofInteger n).bind fun _ _ => faultFree_pure
  case h_6 => exact Value.faultFree_integerText n
  all_goals exact hsigned _

namespace Value

theorem faultFree_layout (letter : Char) (v : Value) : FaultFree (v.layout letter) := by
  unfold layout
  split
  · exact Integer.faultFree_layout letter _
  · split <;> simp
  · repeat' split
    all_goals simp

theorem faultFree_render (domain : Option Domain) (v : Value) : FaultFree (v.render domain) := by
  unfold render
  split
  case h_2 m => exact m.faultFree_text.bind fun _ _ => faultFree_pure
  case h_7 c => exact c.faultFree_text
  case h_8 => exact (faultFree_layout 'f' _).bind fun _ _ => faultFree_pure
  case h_9 => exact faultFree_plainText _
  case h_12 => unfold durationFailure; split <;> simp
  all_goals simp [lacks]

/-! ## Values as sequences -/

theorem faultFree_size (v : Value) : FaultFree v.size := by
  unfold size
  split
  case h_5 => split <;> simp
  all_goals simp

theorem faultFree_items (v : Value) : FaultFree v.items := by
  unfold items
  split
  case h_5 => split <;> simp
  all_goals simp

theorem faultFree_take (limit : Int) (v : Value) : FaultFree (v.take limit) := by
  unfold take
  split
  all_goals simp

end Value

end UnitText
