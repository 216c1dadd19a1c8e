import UnitText.Proofs.Format.Failures
import UnitText.Proofs.Value.Refusals

/-!
# Conversions of basic values

A conversion of a basic value gives its output, or it refuses the value; otherwise the width or the
precision of its field is too large. That is never so for those of 32 bits.

## Main definitions

- `Kind.Exceeds`, `Field.Exceeds` — how a width or a precision is too large
- `Argument.IsTooLargeFor` — an integer beyond the floating-point numbers

## Main statements

- `Field.failsOnly_render` — how conversions of basic values fail
- `Field.exists_render_eq_error` — what they refuse
-/

namespace UnitText

/-- An integer that a floating-point conversion has no number for. -/
def Argument.IsTooLargeFor (k : Kind) (a : Argument) : Prop :=
  k.isFloat ∧ a.family = .integer ∧ ∃ n, a.value = .integer n ∧ Double.ofInt? n = none

/-- How a conversion fails with a width or a precision that is too large: there are no runs of
characters of that length, or floating-point numbers are not written with so many places. -/
inductive Kind.Exceeds (k : Kind) (width : Nat) (precision : Option Nat) : Failure → Prop where
  | width (h : Field.runLimit ≤ width) : Exceeds k width precision (.range .padding)
  | digits {p : Nat} (hkind : (∃ form, k = .integer form) ∨ ∃ upper, k = .float .hex upper)
    (hp : precision = some p) (h : Field.runLimit ≤ p) : Exceeds k width precision (.range .digits)
  | places {form : FloatForm} {upper : Bool} {p : Nat} (hkind : k = .float form upper)
    (hform : form ≠ .hex) (hp : precision = some p) (h : 2 ^ 31 ≤ p) (hlt : p < 2 ^ 63) :
    Exceeds k width precision (.value .floatPrecision)
  | format {form : FloatForm} {upper : Bool} {p : Nat} (hkind : k = .float form upper)
    (hform : form ≠ .hex) (hp : precision = some p) (h : 2 ^ 63 ≤ p) :
    Exceeds k width precision (.value .floatFormat)

namespace Field

variable {f : Field} {a : Argument}

/-- The width or the precision of the field is too large. -/
def Exceeds (f : Field) : Failure → Prop := f.spec.kind.Exceeds f.width f.precision

/-- How a conversion of a basic value fails. -/
def Fails (f : Field) (a : Argument) (e : Failure) : Prop := f.spec.Refuses a e ∨ f.Exceeds e

/-! ## Fields that are filled -/

theorem failsOnly_filling (f : Field) (c : Char) (cs : Chars) :
    FailsOnly f.Exceeds (filling c (f.missing cs)) := by
  unfold filling
  split
  · next hlong => exact failsOnly_error (.width (hlong.trans (Nat.sub_le _ _)))
  · exact failsOnly_ok

theorem failsOnly_padText (f : Field) (cs : Chars) : FailsOnly f.Exceeds (f.padText cs) :=
  (f.failsOnly_filling _ cs).bind fun _ _ => failsOnly_pure

theorem failsOnly_padNumber (f : Field) (start digits : Chars) (zeros : Bool) :
    FailsOnly f.Exceeds (f.padNumber start digits zeros) :=
  (f.failsOnly_filling _ _).bind fun _ _ => failsOnly_pure

theorem failsOnly_padPiece (f : Field) (cs : Chars) :
    FailsOnly f.Exceeds (f.padPiece (.chars cs)) :=
  (f.failsOnly_padText cs).bind fun _ _ => failsOnly_pure

theorem failsOnly_storedInteger {form : IntegerForm} (hkind : f.spec.kind = .integer form)
    (n : Int) : FailsOnly f.Exceeds (f.storedInteger n) := by
  have hprecise : ∀ isZero digits, FailsOnly f.Exceeds (f.precise isZero digits) := by
    intro isZero digits
    unfold precise
    split
    · exact failsOnly_ok
    · next p hp =>
      split
      · next hlong => exact failsOnly_error (.digits (.inl ⟨form, hkind⟩) hp hlong)
      · exact failsOnly_ok
  exact (hprecise _ _).bind fun _ _ => f.failsOnly_padNumber _ _ _

section

variable {form : FloatForm} {upper : Bool} (hkind : f.spec.kind = .float form upper)
include hkind

theorem failsOnly_floatPrecision (hform : form ≠ .hex) : FailsOnly f.Exceeds f.floatPrecision := by
  unfold floatPrecision
  cases hp : f.precision with
  | none => exact failsOnly_ok
  | some p =>
    simp only [Option.getD_some]
    split
    · next h => exact failsOnly_error (.format hkind hform hp h)
    · next hlt =>
      split
      · next h => exact failsOnly_error (.places hkind hform hp h (Nat.lt_of_not_le hlt))
      · exact failsOnly_ok

theorem failsOnly_double (x : Double) : FailsOnly f.Exceeds (f.double form x) := by
  unfold double
  split
  · exact f.failsOnly_padNumber _ _ _
  split
  · unfold hexDouble
    split
    · next hlong =>
      obtain ⟨p, hp, h⟩ := (Option.any_eq_true _ _).1 hlong
      exact failsOnly_error (.digits (.inr ⟨upper, hkind⟩) hp (of_decide_eq_true h))
    · exact f.failsOnly_padNumber _ _ _
  · next hform =>
    exact (failsOnly_floatPrecision hkind hform).bind fun _ _ => f.failsOnly_padNumber _ _ _

end

/-! ## Conversions -/

/-- An integer beyond the floating-point numbers is refused. -/
theorem failsOnly_nearest {s : Specifier} (ha : a.IsBasic)
    (hfamily : a.family = .integer ∨ a.family = .float) :
    FailsOnly (s.Refuses a) (nearest s a.value) := by
  cases ha with
  | float x bits => exact failsOnly_ok
  | integer n bits signed =>
    have hfloat : (Value.integer n).toFloat = Double.ofInteger n := rfl
    simp only [nearest, hfloat, Double.ofInteger]
    cases Double.ofInt? n with
    | some x => exact failsOnly_ok
    | none =>
      have htext : (Value.integer n).plainText =
        (return Chars.ofString (← Value.integerText n)) := rfl
      refine FailsOnly.bind ?_ fun _ _ => failsOnly_error (.mismatch rfl rfl)
      rw [htext]
      refine FailsOnly.bind ?_ fun _ _ => failsOnly_pure
      exact Value.failsOnly_integerText fun hn => .oversized rfl hn
  | boolean | address | text | character | slot => rcases hfamily with h | h <;> cases h

theorem failsOnly_numberedChar (s : Specifier) (n : Int) (a : Argument) :
    FailsOnly (s.Refuses a) (numberedChar s n) := by
  simp only [numberedChar]
  split
  · split
    · exact failsOnly_error (.mismatch rfl rfl)
    · exact failsOnly_ok
  · exact failsOnly_error (.mismatch rfl rfl)

theorem failsOnly_writable (f : Field) (cs : Chars) (a : Argument) :
    FailsOnly (f.spec.Refuses a) (f.writable (.chars cs)) := by
  have htext : FailsOnly (f.spec.Refuses a) (f.writableText cs) := by
    unfold writableText
    split
    · exact failsOnly_ok
    · exact failsOnly_error (.mismatch rfl rfl)
  exact htext.bind fun _ _ => failsOnly_pure

theorem failsOnly_count (ha : a.IsBasic) (hkind : f.spec.kind = .count) :
    FailsOnly (f.spec.Refuses a) (f.count a) := by
  refine ha.failsOnly_check.bind fun _ hcheck => ?_
  rw [Argument.check_eq_ok, hkind] at hcheck
  cases ha with
  | slot name holds => exact failsOnly_pure
  | boolean | integer | float | address | text | character => cases hcheck

section

variable (ha : a.IsBasic)
include ha

theorem failsOnly_integer {form : IntegerForm} (hkind : f.spec.kind = .integer form) :
    FailsOnly (f.Fails a) (f.integer form a) := by
  refine (ha.failsOnly_check.mono fun _ => .inl).bind fun _ hcheck => ?_
  rw [Argument.check_eq_ok, hkind] at hcheck
  have hstored : ∀ n, FailsOnly (f.Fails a) (f.storedInteger n) :=
    fun n => (failsOnly_storedInteger hkind n).mono fun _ => .inr
  cases ha with
  | boolean b =>
    show FailsOnly _ (if _ then f.booleanWord b else f.storedInteger _)
    split
    · exact (f.failsOnly_padText _).mono fun _ => .inr
    · exact hstored _
  | integer n bits signed => exact hstored (stored f.spec n)
  | float | address | text | character | slot => cases hcheck

theorem failsOnly_float {form : FloatForm} {upper : Bool}
    (hkind : f.spec.kind = .float form upper) :
    FailsOnly (f.Fails a) (f.float form a) := by
  refine (ha.failsOnly_check.mono fun _ => .inl).bind fun _ hcheck => ?_
  rw [Argument.check_eq_ok, hkind] at hcheck
  have hfamily : a.domain = none ∧ (a.family = .integer ∨ a.family = .float) := by
    cases ha with
    | integer => exact ⟨rfl, .inl rfl⟩
    | float => exact ⟨rfl, .inr rfl⟩
    | boolean | address | text | character | slot => cases hcheck
  rw [hfamily.1, if_neg nofun]
  exact ((failsOnly_nearest ha hfamily.2).mono fun _ => .inl).bind fun x _ =>
    (failsOnly_double hkind x).mono fun _ => .inr

theorem failsOnly_char (hkind : f.spec.kind = .char) : FailsOnly (f.Fails a) (f.char a) := by
  refine (ha.failsOnly_check.mono fun _ => .inl).bind fun _ hcheck => ?_
  rw [Argument.check_eq_ok, hkind] at hcheck
  have hpiece : FailsOnly (f.spec.Refuses a) (charPiece f.spec a) ∧
      ∀ p, charPiece f.spec a = .ok p → ∃ cs, p = .chars cs := by
    cases ha with
    | integer n bits signed =>
      refine ⟨(failsOnly_numberedChar f.spec n _).bind fun _ _ => failsOnly_pure, fun p hp => ?_⟩
      obtain ⟨_, -, hp⟩ := bind_eq_ok.1 hp
      obtain ⟨cs, -, hp⟩ := bind_eq_ok.1 hp
      exact ⟨cs, (pure_eq_ok.1 hp).symm⟩
    | text cs | character cs =>
      refine ⟨failsOnly_pure, fun p hp => ⟨cs, ?_⟩⟩
      rw [← pure_eq_ok.1 hp, Piece.ofValue_ofChars]
    | boolean | float | address | slot => cases hcheck
  refine (hpiece.1.mono fun _ => .inl).bind fun p hp => ?_
  obtain ⟨cs, rfl⟩ := hpiece.2 p hp
  refine ((failsOnly_writable f cs a).mono fun _ => .inl).bind fun q hq => ?_
  rw [f.writable_eq_ok hq]
  exact (f.failsOnly_padPiece cs).mono fun _ => .inr

theorem failsOnly_string (hwidth : f.charWidth = .wide32) (hkind : f.spec.kind = .string) :
    FailsOnly (f.Fails a) (f.string a) := by
  refine (ha.failsOnly_check.mono fun _ => .inl).bind fun _ hcheck => ?_
  rw [Argument.check_eq_ok, hkind] at hcheck
  obtain ⟨cs, hcs⟩ : ∃ cs, stringPiece a = .ok (.chars cs) := by
    cases ha with
    | text cs | character cs =>
      refine ⟨cs, ?_⟩
      show Except.ok (Piece.ofValue (.ofChars cs)) = _
      rw [Piece.ofValue_ofChars]
    | boolean | integer | float | address | slot => cases hcheck
  rw [hcs]
  refine ((failsOnly_writable f cs a).mono fun _ => .inl).bind fun q hq => ?_
  rw [f.writable_eq_ok hq]
  obtain ⟨ds, hds⟩ : ∃ ds, f.truncated (.chars cs) = .ok (.chars ds) := by
    cases hprecision : f.precision with
    | none => exact ⟨cs, by simp only [truncated, hprecision]⟩
    | some n =>
      refine ⟨cs.take (takenLength cs.length n), ?_⟩
      simp only [truncated, hprecision, hwidth]
      rfl
  rw [hds]
  exact (f.failsOnly_padPiece ds).mono fun _ => .inr

theorem failsOnly_pointer (hkind : f.spec.kind = .pointer) :
    FailsOnly (f.Fails a) (f.pointer a) := by
  refine (ha.failsOnly_check.mono fun _ => .inl).bind fun _ hcheck => ?_
  rw [Argument.check_eq_ok, hkind] at hcheck
  cases ha with
  | integer n | address n => exact (f.failsOnly_padText _).mono fun _ => .inr
  | boolean | float | text | character | slot => cases hcheck

/-- A conversion of a basic value gives its output, or it refuses the value, or its field is too
large. -/
theorem failsOnly_render (hwidth : f.charWidth = .wide32) (hkind : f.spec.kind ≠ .percent) :
    FailsOnly (f.Fails a) (f.render a) := by
  unfold render
  split
  · next form hform => exact (failsOnly_integer ha hform).bind fun _ _ => failsOnly_pure
  · next form upper hform => exact (failsOnly_float ha hform).bind fun _ _ => failsOnly_pure
  · next hform => exact failsOnly_char ha hform
  · next hform => exact failsOnly_string ha hwidth hform
  · next hform => exact (failsOnly_pointer ha hform).bind fun _ _ => failsOnly_pure
  · next hform => exact (failsOnly_count ha hform).mono fun _ => .inl
  · next hform => exact absurd hform hkind

end

/-! ## What is refused -/

/-- An argument that does not suit its conversion is refused, and so is an integer beyond the
floating-point numbers, whatever the field is. -/
theorem exists_render_eq_error (ha : a.IsBasic) (hkind : f.spec.kind ≠ .percent)
    (h : a.suits f.spec.kind = .ok false ∨ a.IsTooLargeFor f.spec.kind) :
    ∃ e, f.spec.Refuses a e ∧ f.render a = .error e := by
  rcases h with hsuits | ⟨hfloat, hfamily, n, hvalue, hn⟩
  · obtain ⟨e, hrefuses, hcheck⟩ := ha.exists_check_eq_error hsuits
    exact ⟨e, hrefuses, render_eq_error_of_check hkind hcheck⟩
  · obtain ⟨form, upper, hform⟩ : ∃ form upper, f.spec.kind = .float form upper := by
      cases hform : f.spec.kind with
      | float form upper => exact ⟨form, upper, rfl⟩
      | _ =>
        rw [hform] at hfloat
        cases hfloat
    obtain ⟨e, hnearest⟩ : ∃ e, nearest f.spec a.value = .error e := by
      cases hnearest : nearest f.spec a.value with
      | error e => exact ⟨e, rfl⟩
      | ok x =>
        have hinteger : (Value.integer n).toFloat = Double.ofInteger n := rfl
        rw [hvalue, nearest_eq_ok, hinteger, Double.ofInteger, hn] at hnearest
        cases hnearest
    refine ⟨e, failsOnly_nearest ha (.inl hfamily) e hnearest, ?_⟩
    have hcheck : a.check f.spec = .ok () := by
      rw [Argument.check_eq_ok, hform]
      simp only [Argument.suits, hfamily]
    have hdomain : a.domain ≠ some .fixedPoint := by
      intro h
      cases ha <;> cases h
    simp only [render, hform, float, hcheck, hdomain, hnearest, Bind.bind, Except.bind, ↓reduceIte]

end Field

end UnitText
