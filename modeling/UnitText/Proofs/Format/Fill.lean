import UnitText.Proofs.Format.Fits
import UnitText.Proofs.Format.Place
import UnitText.Proofs.Format.Start

/-!
# Filling numbers

A text is filled to the width of a field with spaces on its right or on its left, or with zeros
behind its sign and mark. A width changes numbers in this way and no other, and zeros are for those
whose digits are written.

## Main definitions

- `Field.bare` — the field without a width
- `Field.fill` — a text, filled to the width of a field
- `Argument.IsFinite` — whether a floating-point conversion reads a finite number

## Main statements

- `Field.length_fill` — a field that is filled is as wide as it has to be
- `Field.padText_eq`, `Field.padNumber_eq` — the two ways to fill a field, as one
- `Field.integer_fill`, `Field.float_fill` — what a width makes of a number
-/

namespace UnitText

namespace Field

variable {f : Field} {a : Argument}

/-- The field for the same conversion without a width. -/
def bare (f : Field) : Field := { f with width := 0 }

/-- The text, filled to the width of the field: with spaces on its right or on its left, or with
zeros behind the sign and mark that it begins with. -/
def fill (f : Field) (zeros : Bool) (cs : Chars) : Chars :=
  if f.flags.left then cs ++ List.replicate (f.missing cs) (CodePoint.ofChar ' ')
  else if zeros then
    cs.take cs.startLength ++ List.replicate (f.missing cs) (CodePoint.ofChar '0') ++
      cs.drop cs.startLength
  else List.replicate (f.missing cs) (CodePoint.ofChar ' ') ++ cs

theorem fill_eq_self {zeros : Bool} {cs : Chars} (h : f.width ≤ f.charWidth.length cs) :
    f.fill zeros cs = cs := by
  have hmissing : f.missing cs = 0 := Nat.sub_eq_zero_of_le h
  rw [fill, hmissing]
  simp

theorem length_replicate (w : Width) {c : Char} (hc : c.toNat < 0x80) (n : Nat) :
    w.length (List.replicate n (CodePoint.ofChar c)) = n := by
  have hunits : (w.unitsOf (CodePoint.ofChar c)).length = 1 := by
    cases w with
    | narrow => simp [Width.unitsOf, Utf8.bytesOf, hc]
    | wide16 =>
      have hlt : c.toNat < 0x10000 := by omega
      simp [Width.unitsOf, Utf16.unitsOf, hlt]
    | wide32 => rfl
  induction n with
  | zero => rfl
  | succ n ih =>
    have hcons : w.length (List.replicate (n + 1) (CodePoint.ofChar c)) =
        (w.unitsOf (CodePoint.ofChar c)).length +
          w.length (List.replicate n (CodePoint.ofChar c)) := rfl
    rw [hcons, hunits, ih, Nat.add_comm]

/-- A field that is filled takes as many units as it is wide, unless the text takes more. -/
theorem length_fill (f : Field) (zeros : Bool) (cs : Chars) :
    f.charWidth.length (f.fill zeros cs) = max f.width (f.charWidth.length cs) := by
  have hspaces := length_replicate f.charWidth (c := ' ') (by decide) (f.missing cs)
  have hzeros := length_replicate f.charWidth (c := '0') (by decide) (f.missing cs)
  have hsplit : f.charWidth.length (cs.take cs.startLength) +
      f.charWidth.length (cs.drop cs.startLength) = f.charWidth.length cs := by
    rw [← Width.length_append, List.take_append_drop]
  have hmissing : f.missing cs = f.width - f.charWidth.length cs := rfl
  rw [fill]
  split
  · rw [Width.length_append, hspaces]
    omega
  · split
    · rw [Width.length_append, Width.length_append, hzeros]
      omega
    · rw [Width.length_append, hspaces]
      omega

/-! ## The two ways to fill a field -/

section

variable (hwidth : f.width ≤ 2 ^ 62)
include hwidth

theorem filling_missing (c : Char) (cs : Chars) :
    filling c (f.missing cs) = .ok (List.replicate (f.missing cs) (CodePoint.ofChar c)) := by
  have hlt : f.missing cs ≤ f.width := Nat.sub_le _ _
  refine if_neg ?_
  simp only [runLimit]
  omega

theorem padText_eq (cs : Chars) : f.padText cs = .ok (f.fill false cs) := by
  rw [padText, filling_missing hwidth, fill]
  cases f.flags.left <;> rfl

/-- Zeros are put where the digits begin, if the start of the text is what it looks like. -/
theorem padNumber_eq {start digits : Chars} {zeros : Bool}
    (hstart : zeros → (start ++ digits).startLength = start.length) :
    f.padNumber start digits zeros = .ok (f.fill zeros (start ++ digits)) := by
  rw [padNumber, filling_missing hwidth, fill]
  cases hleft : f.flags.left with
  | true => cases zeros <;> rfl
  | false =>
    cases zeros with
    | false => simp
    | true => simp [hstart]

end

theorem padText_bare (f : Field) (cs : Chars) : f.bare.padText cs = .ok cs := by
  rw [padText_eq (Nat.zero_le _), fill_eq_self (Nat.zero_le _)]

theorem padNumber_bare (f : Field) (start digits : Chars) (zeros : Bool) :
    f.bare.padNumber start digits zeros = .ok (start ++ digits) := by
  have hmissing : f.bare.missing (start ++ digits) = 0 := Nat.zero_sub _
  have hfilling : ∀ c, filling c 0 = .ok [] := fun _ => rfl
  rw [padNumber, hmissing, hfilling]
  cases f.bare.flags.left with
  | true => cases zeros <;> simp
  | false => cases zeros <;> simp

theorem signChars_eq (f : Field) (negative signed : Bool) :
    f.signChars negative signed = [] ∨
      ∃ c ∈ ['+', '-', ' '], f.signChars negative signed = [CodePoint.ofChar c] := by
  unfold signChars
  split
  · exact .inr ⟨'-', by decide, rfl⟩
  · split
    · exact .inl rfl
    · split
      · exact .inr ⟨'+', by decide, rfl⟩
      · split
        · exact .inr ⟨' ', by decide, rfl⟩
        · exact .inl rfl

theorem signChars_ne_nil {f : Field} {negative signed : Bool} (h : negative) :
    f.signChars negative signed ≠ [] := by
  simp [signChars, h]

theorem baseMark_eq (f : Field) (isZero : Bool) :
    f.baseMark isZero = [] ∨ ∃ c ∈ ['x', 'X', 'b', 'B'], f.baseMark isZero = ['0', c] := by
  unfold baseMark
  split
  · next h =>
    refine .inr ⟨_, ?_, rfl⟩
    -- only the hexadecimal and the binary conversions have these bases
    have hletter : ∀ k ∈ Kind.all, k.radix = 2 ∨ k.radix = 16 →
        k.letter ∈ ['x', 'X', 'b', 'B'] := by decide
    exact hletter _ f.spec.kind.mem_all h.2.1
  · exact .inl rfl

/-! ## Integers -/

section

variable (hwidth : f.width ≤ 2 ^ 62) {cs : Chars}
include hwidth

theorem signedDigits_fill {negative isZero : Bool} {digits : List Char}
    (hbody : IsBody (f.signChars negative f.spec.kind.isSigned ≠ []) (f.octalMarked digits))
    (h : f.bare.signedDigits negative isZero digits = .ok cs) :
    f.signedDigits negative isZero digits =
      .ok (f.fill (f.flags.zero && f.precision.isNone) cs) := by
  obtain ⟨ds, hds, h⟩ := bind_eq_ok.1 h
  simp only [padNumber_bare] at h
  obtain rfl := Except.ok.inj h
  have hds : f.precise isZero digits = .ok ds := hds
  refine bind_eq_ok.2 ⟨ds, hds, padNumber_eq hwidth fun hzeros => ?_⟩
  -- zeros fill the field only where there is no precision, and then the digits are as they were
  have hnone : f.precision = none := by simp_all
  rw [precise, hnone] at hds
  obtain rfl := Except.ok.inj hds
  refine Chars.startLength_append (f.signChars_eq _ _) ?_ fun _ => hbody
  rcases f.baseMark_eq isZero with hmark | ⟨c, hc, hmark⟩
  · exact .inl (congrArg points hmark)
  · exact .inr ⟨c, hc, congrArg points hmark⟩

theorem storedInteger_fill {n : Int} (h : f.bare.storedInteger n = .ok cs) :
    f.storedInteger n = .ok (f.fill (f.flags.zero && f.precision.isNone) cs) :=
  signedDigits_fill hwidth (isBody_octalMarked (.inl rfl) n.natAbs) h

theorem booleanWord_fill {b : Bool} (h : f.bare.booleanWord b = .ok cs) :
    f.booleanWord b = .ok (f.fill false cs) := by
  simp only [booleanWord, padText_bare] at h
  obtain rfl := Except.ok.inj h
  exact padText_eq hwidth _

/-- A truth value that is handed in as another value is a number with the sign of that value. -/
theorem truth_fill {form : IntegerForm} {v : Value} (hkind : f.spec.kind = .integer form)
    (h : f.bare.truth form v = .ok cs) :
    ∃ zeros, f.truth form v = .ok (f.fill zeros cs) ∧
      (zeros = true ↔ f.flags.zero ∧ f.precision = none ∧
        ¬(form.isDecimal ∧ ∃ b, v = .boolean b false)) := by
  unfold truth at h ⊢
  split at h
  · next b =>
    split at h
    · next hdecimal =>
      simp only [hdecimal, ↓reduceIte]
      exact ⟨false, booleanWord_fill hwidth h, by simp⟩
    · next hdecimal =>
      simp only [hdecimal]
      exact ⟨_, storedInteger_fill hwidth h, by simp⟩
  · next hnot =>
    obtain ⟨m, hm, h⟩ := bind_eq_ok.1 h
    obtain ⟨s, hs, h⟩ := bind_eq_ok.1 h
    obtain ⟨isZero, hzero, h⟩ := bind_eq_ok.1 h
    have hinteger : f.spec.kind.isInteger := by rw [hkind]; rfl
    obtain ⟨n, hn, hlayout⟩ := Value.layout_of_magnitude hm (Kind.layoutLetter_ne hinteger) hs
    obtain ⟨own, hdigits, hown⟩ := Integer.toList_of_layout hinteger hlayout
    have hbody : IsBody (f.signChars (v.integer?.any (· < 0)) f.spec.kind.isSigned ≠ [])
        (f.octalMarked s.toList) := by
      rw [hdigits]
      refine isBody_octalMarked (hown.imp_right fun ⟨hminus, hneg⟩ => ⟨hminus, ?_⟩) n.natAbs
      exact signChars_ne_nil (Value.any_neg_of_magnitude hm hn hneg)
    refine ⟨f.flags.zero && f.precision.isNone, ?_, ?_⟩
    · exact bind_eq_ok.2 ⟨m, hm, bind_eq_ok.2 ⟨s, hs, bind_eq_ok.2 ⟨isZero, hzero,
        signedDigits_fill hwidth hbody h⟩⟩⟩
    · have hword : ¬∃ b, v = .boolean b false := fun ⟨b, hb⟩ => hnot b hb
      simp [hword]

theorem integer_fill {form : IntegerForm} (hkind : f.spec.kind = .integer form)
    (h : f.bare.integer form a = .ok cs) :
    ∃ zeros, f.integer form a = .ok (f.fill zeros cs) ∧
      (zeros = true ↔ f.flags.zero ∧ f.precision = none ∧
        ¬(a.family = .boolean ∧ form.isDecimal ∧ ∃ b, a.value = .boolean b false)) := by
  obtain ⟨_, hcheck, h⟩ := bind_eq_ok.1 h
  have hcheck : a.check f.spec = .ok () := hcheck
  split at h
  · next hfamily =>
    obtain ⟨zeros, hfill, hzeros⟩ := truth_fill hwidth hkind h
    refine ⟨zeros, bind_eq_ok.2 ⟨(), hcheck, ?_⟩, by rw [hzeros]; simp [hfamily]⟩
    rw [if_pos hfamily]
    exact hfill
  · next hfamily =>
    obtain ⟨n, hn, h⟩ := bind_eq_ok.1 h
    refine ⟨f.flags.zero && f.precision.isNone, bind_eq_ok.2 ⟨(), hcheck, ?_⟩, by simp [hfamily]⟩
    rw [if_neg hfamily]
    exact bind_eq_ok.2 ⟨n, hn, storedInteger_fill hwidth h⟩

/-! ## Floating-point numbers -/

/-- The start of a number is its sign and its mark, so its digits have to look like digits only if
there is no mark. -/
theorem padFinite_fill {negative : Bool} {mark digits : List Char}
    (hmark : mark = ['0', 'x'] ∨ mark = [] ∧ IsBody (f.signChars negative true ≠ [])
      (if f.spec.kind.isUpper then digits.map Char.toUpper else digits))
    (h : f.bare.padFinite negative mark digits = .ok cs) :
    f.padFinite negative mark digits = .ok (f.fill f.flags.zero cs) := by
  simp only [padFinite, padNumber_bare] at h
  obtain rfl := Except.ok.inj h
  refine padNumber_eq hwidth fun _ => Chars.startLength_append (f.signChars_eq _ _) ?_ ?_
  · rcases hmark with rfl | ⟨rfl, -⟩
    · right
      cases hupper : f.spec.kind.isUpper with
      | true => exact ⟨'X', by decide, by rw [cased, if_pos hupper]; rfl⟩
      | false => exact ⟨'x', by decide, by rw [cased, hupper]; rfl⟩
    · left
      rw [cased]
      split <;> rfl
  · rintro hnil
    rcases hmark with rfl | ⟨rfl, hbody⟩
    · rw [cased] at hnil
      split at hnil <;> cases hnil
    · exact hbody

theorem nonFinite_fill {x : Double} (h : f.bare.nonFinite x = .ok cs) :
    f.nonFinite x = .ok (f.fill false cs) := by
  simp only [nonFinite, padNumber_bare] at h
  obtain rfl := Except.ok.inj h
  exact padNumber_eq hwidth nofun

theorem finiteDouble_fill {form : FloatForm} {negative : Bool} {size : Double}
    (hsize : size.negative → negative) (h : f.bare.finiteDouble form negative size = .ok cs) :
    f.finiteDouble form negative size = .ok (f.fill f.flags.zero cs) := by
  obtain ⟨p, hp, h⟩ := bind_eq_ok.1 h
  refine bind_eq_ok.2 ⟨p, hp, padFinite_fill hwidth (.inr ⟨rfl, ?_⟩) h⟩
  refine isBody_figures f ?_ (hasWhole_figures _ _ _ _ _ _) _
  split
  · next hminus => exact .inr ⟨rfl, signChars_ne_nil (hsize hminus)⟩
  · exact .inl rfl

theorem hexDouble_fill {x : Double} (h : f.bare.hexDouble x = .ok cs) :
    f.hexDouble x = .ok (f.fill f.flags.zero cs) := by
  unfold hexDouble at h ⊢
  split at h
  · cases h
  · next hprecision =>
    have hprecision : ¬f.precision.any (runLimit ≤ ·) := hprecision
    rw [if_neg hprecision]
    exact padFinite_fill hwidth (.inl rfl) h

theorem double_fill {form : FloatForm} {x : Double} (h : f.bare.double form x = .ok cs) :
    f.double form x = .ok (f.fill (f.flags.zero && x.isFinite) cs) := by
  unfold double at h ⊢
  cases hx : x.isFinite with
  | false =>
    simp only [hx] at h ⊢
    rw [Bool.and_false]
    exact nonFinite_fill hwidth h
  | true =>
    simp only [hx, Bool.not_true, Bool.false_eq_true, ↓reduceIte] at h ⊢
    rw [Bool.and_true]
    have habs : x.abs.negative → x.negative := by simp
    cases form with
    | hex => exact hexDouble_fill hwidth h
    | fixed | exponent | general => exact finiteDouble_fill hwidth habs h

theorem finiteDecimal_fill {form : FloatForm} {negative : Bool} {c : Nat} {e : Int}
    (h : f.bare.finiteDecimal form negative c e = .ok cs) :
    f.finiteDecimal form negative c e = .ok (f.fill f.flags.zero cs) := by
  obtain ⟨places, hplaces, h⟩ := bind_eq_ok.1 h
  refine bind_eq_ok.2 ⟨places, hplaces, padFinite_fill hwidth (.inr ⟨rfl, ?_⟩) h⟩
  exact isBody_figures f (.inl rfl) (hasWhole_figures _ _ _ _ _ _) _

end

end Field

/-- The number that a floating-point conversion reads of an argument is finite. A decimal number is
read as it is, except in the hexadecimal form. -/
inductive Argument.IsFinite (form : FloatForm) (a : Argument) : Prop where
  | decimal {negative : Bool} {c : Nat} {e : Int} (hdomain : a.domain = some .fixedPoint)
    (hform : form ≠ .hex) (h : a.value = .decimal (.finite negative c e)) : IsFinite form a
  | double {x : Double} (h : a.value.toFloat = .ok x) (hx : x.isFinite) : IsFinite form a

/-- Where no decimal number is read as it is, a floating-point number decides. -/
theorem Argument.isFinite_iff {form : FloatForm} {a : Argument} {x : Double}
    (h : a.value.toFloat = .ok x) (hdecimal : a.domain = some .fixedPoint → form ≠ .hex →
      ∀ negative c e, a.value ≠ .decimal (.finite negative c e)) :
    a.IsFinite form ↔ x.isFinite := by
  constructor
  · rintro (⟨hdomain, hform, hvalue⟩ | ⟨hx, hfinite⟩)
    · exact absurd hvalue (hdecimal hdomain hform _ _ _)
    · rw [h] at hx
      rwa [Except.ok.inj hx]
  · exact .double h

theorem Decimal.eq_finite_of_rounded {negative : Bool} {c : Nat} {e : Int} {d : Decimal}
    (h : rounded negative c e = .ok d) : ∃ c e, d = finite negative c e := by
  unfold rounded at h
  split at h
  · exact ⟨_, _, (Except.ok.inj h).symm⟩
  · -- whatever it is rounded to, it is finite or too large
    change (if _ then Except.error (Failure.signal .overflow) else .ok (finite negative _ _)) =
      .ok d at h
    split at h
    · cases h
    · exact ⟨_, _, (Except.ok.inj h).symm⟩

namespace Field

/-- A number that is no decimal number, in one of the decimal forms. -/
def real (f : Field) (form : FloatForm) (v : Value) : Except Failure Chars := do
  let x ← v.toReal
  if x.isFinite then f.finiteDouble form x.negative (← (← v.magnitude).toReal)
  else f.nonFinite x

variable {f : Field} {form : FloatForm} {v : Value}

/-- A finite decimal is written from its magnitude, which is finite too. -/
theorem decimal_finite_eq_ok {cs : Chars} {negative : Bool} {c : Nat} {e : Int}
    (hform : form ≠ .hex) : f.decimal form (.finite negative c e) = .ok cs ↔
      ∃ c' e', (Decimal.finite negative c e).abs = .ok (.finite false c' e') ∧
        f.finiteDecimal form negative c' e' = .ok cs := by
  cases form with
  | hex => exact absurd rfl hform
  | fixed | exponent | general =>
    simp only [decimal, bind_eq_ok]
    constructor
    · rintro ⟨d, hd, h⟩
      obtain ⟨c', e', rfl⟩ := Decimal.eq_finite_of_rounded hd
      exact ⟨c', e', hd, h⟩
    · rintro ⟨c', e', hd, h⟩
      exact ⟨_, hd, h⟩

theorem fixedPoint_decimal {d : Decimal} (hform : form ≠ .hex) :
    f.fixedPoint form (.decimal d) = f.decimal form d := by
  cases form with
  | hex => exact absurd rfl hform
  | fixed | exponent | general => rfl

theorem fixedPoint_eq_real (hform : form ≠ .hex) (hdecimal : ∀ d, v ≠ .decimal d) :
    f.fixedPoint form v = f.real form v := by
  rw [fixedPoint]
  · rfl
  · exact hform
  · exact hdecimal

end Field

namespace Value

variable {v m : Value} {x size : Double}

/-- What a value is called that is no number does not matter to one that is. -/
theorem numberOr_eq_ok {refused : TypeFault} (refused' : TypeFault)
    (h : v.numberOr refused = .ok x) : v.numberOr refused' = .ok x := by
  unfold numberOr at h ⊢
  split at h
  · exact h
  · exact h
  · exact h
  · split at h <;> cases h

/-- Real numbers have no texts or bytes that could be read instead. -/
theorem toFloat_of_toReal (h : v.toReal = .ok x) : v.toFloat = .ok x := by
  cases v with
  | text t =>
    change (if _ then _ else _) = Except.ok x at h
    split at h <;> cases h
  | boolean | integer | machineInteger | float | machineFloat | decimal => exact h
  | member m => exact numberOr_eq_ok _ h
  | _ => cases h

/-- The magnitude of a floating-point number has no sign, and that of any other value but a decimal
number is no number at all or an integer. -/
theorem number_of_magnitude (hdecimal : ∀ d, v ≠ .decimal d) (hm : v.magnitude = .ok m) :
    (∀ y, m.float? = some y → y.negative = false) ∧ ∀ d, m ≠ .decimal d := by
  unfold magnitude at hm
  split at hm
  case h_3 x =>
    cases hm
    refine ⟨fun y hy => ?_, nofun⟩
    obtain rfl := Option.some.inj hy
    exact (x.type.negative_hold _).trans (Double.negative_abs _)
  case h_4 =>
    cases hm
    refine ⟨fun y hy => ?_, nofun⟩
    obtain rfl := Option.some.inj hy
    exact Double.negative_abs _
  case h_5 d => exact absurd rfl (hdecimal d)
  case h_7 =>
    split at hm
    · cases hm
      exact ⟨nofun, nofun⟩
    · split at hm
      · next helements =>
        cases hm
        refine ⟨fun y hy => ?_, hdecimal⟩
        cases v with
        | float | machineFloat => cases helements
        | _ => cases hy
      · cases hm
  all_goals
    cases hm
    exact ⟨nofun, nofun⟩

/-- The size of a real number is negative only if the number is. -/
theorem negative_of_magnitude (hdecimal : ∀ d, v ≠ .decimal d)
    (hx : v.toReal = .ok x) (hm : v.magnitude = .ok m) (hsize : m.toReal = .ok size)
    (hneg : size.negative) : x.negative := by
  obtain ⟨hfloat, hm'⟩ := number_of_magnitude hdecimal hm
  unfold toReal numberOr at hsize
  split at hsize
  · next hn =>
    rw [Double.negative_ofInteger hsize, decide_eq_true_eq] at hneg
    obtain ⟨k, hk, hkneg⟩ := (Option.any_eq_true _ _).1 (any_neg_of_magnitude hm hn hneg)
    have hread : v.toReal = Double.ofInteger k := by
      simp only [toReal, numberOr, hk]
    rw [hread] at hx
    rwa [Double.negative_ofInteger hx]
  · next y hy _ =>
    obtain rfl := Except.ok.inj hsize
    rw [hfloat _ hy] at hneg
    cases hneg
  · exact absurd rfl (hm' _)
  · split at hsize <;> cases hsize

end Value

namespace Field

section

variable {f : Field} {a : Argument} (hwidth : f.width ≤ 2 ^ 62) {cs : Chars}
include hwidth

/-- A decimal number is infinite or no number in the same way as the floating-point number that it
is read as. -/
theorem decimal_fill {form : FloatForm} {d : Decimal} (hform : form ≠ .hex)
    (hdomain : a.domain = some .fixedPoint) (hvalue : a.value = .decimal d)
    (h : f.bare.decimal form d = .ok cs) : ∃ zeros, f.decimal form d = .ok (f.fill zeros cs) ∧
      (zeros = true ↔ f.flags.zero ∧ a.IsFinite form) := by
  by_cases hd : ∃ negative c e, d = .finite negative c e
  · obtain ⟨negative, c, e, rfl⟩ := hd
    have hfinite : a.IsFinite form := .decimal hdomain hform hvalue
    obtain ⟨c', e', hd, h⟩ := (decimal_finite_eq_ok hform).1 h
    have hfill := (decimal_finite_eq_ok hform).2 ⟨c', e', hd, finiteDecimal_fill hwidth h⟩
    exact ⟨f.flags.zero, hfill, by simp [hfinite]⟩
  · have hd : ∀ negative c e, d ≠ .finite negative c e := fun n c e h => hd ⟨n, c, e, h⟩
    have hread : ∀ g : Field, g.decimal form d = d.toDouble >>= g.double form := by
      intro g
      rw [decimal]
      · exact hform
      · exact hd
    rw [hread] at h ⊢
    obtain ⟨x, hx, h⟩ := bind_eq_ok.1 h
    have hfloat : a.value.toFloat = .ok x := by rw [hvalue]; exact hx
    have hfinite : a.IsFinite form ↔ x.isFinite := Argument.isFinite_iff hfloat
      fun _ _ _ _ _ h => hd _ _ _ (Value.decimal.inj (hvalue.symm.trans h))
    exact ⟨_, bind_eq_ok.2 ⟨x, hx, double_fill hwidth h⟩, by simp [hfinite]⟩

/-- The size of any other number is taken in its own type before it is read. -/
theorem real_fill {form : FloatForm} (hdecimal : ∀ d, a.value ≠ .decimal d)
    (h : f.bare.real form a.value = .ok cs) : ∃ zeros, f.real form a.value =
      .ok (f.fill zeros cs) ∧ (zeros = true ↔ f.flags.zero ∧ a.IsFinite form) := by
  obtain ⟨x, hx, h⟩ := bind_eq_ok.1 h
  have hfinite : a.IsFinite form ↔ x.isFinite := Argument.isFinite_iff
    (Value.toFloat_of_toReal hx) fun _ _ _ _ _ hvalue => hdecimal _ hvalue
  split at h
  · next hx' =>
    obtain ⟨m, hm, h⟩ := bind_eq_ok.1 h
    obtain ⟨size, hsize, h⟩ := bind_eq_ok.1 h
    refine ⟨f.flags.zero, bind_eq_ok.2 ⟨x, hx, ?_⟩, by simp [hfinite, hx']⟩
    rw [if_pos hx']
    have hneg := Value.negative_of_magnitude hdecimal hx hm hsize
    exact bind_eq_ok.2 ⟨m, hm, bind_eq_ok.2 ⟨size, hsize, finiteDouble_fill hwidth hneg h⟩⟩
  · next hx' =>
    refine ⟨false, bind_eq_ok.2 ⟨x, hx, ?_⟩, by simp [hfinite, hx']⟩
    rw [if_neg hx']
    exact nonFinite_fill hwidth h

theorem fixedPoint_fill {form : FloatForm} (hdomain : a.domain = some .fixedPoint)
    (h : f.bare.fixedPoint form a.value = .ok cs) :
    ∃ zeros, f.fixedPoint form a.value = .ok (f.fill zeros cs) ∧
      (zeros = true ↔ f.flags.zero ∧ a.IsFinite form) := by
  by_cases hform : form = .hex
  · subst hform
    obtain ⟨x, hx, h⟩ := bind_eq_ok.1 h
    have hfinite : a.IsFinite .hex ↔ x.isFinite :=
      Argument.isFinite_iff hx fun _ hform => absurd rfl hform
    exact ⟨_, bind_eq_ok.2 ⟨x, hx, double_fill hwidth h⟩, by simp [hfinite]⟩
  by_cases hdecimal : ∃ d, a.value = .decimal d
  · obtain ⟨d, hd⟩ := hdecimal
    rw [hd, fixedPoint_decimal hform] at h ⊢
    exact decimal_fill hwidth hform hdomain hd h
  · have hdecimal : ∀ d, a.value ≠ .decimal d := fun d hd => hdecimal ⟨d, hd⟩
    rw [fixedPoint_eq_real hform hdecimal] at h ⊢
    exact real_fill hwidth hdecimal h

theorem float_fill {form : FloatForm}
    (h : f.bare.float form a = .ok cs) : ∃ zeros, f.float form a = .ok (f.fill zeros cs) ∧
      (zeros = true ↔ f.flags.zero ∧ a.IsFinite form) := by
  obtain ⟨_, hcheck, h⟩ := bind_eq_ok.1 h
  have hcheck : a.check f.spec = .ok () := hcheck
  split at h
  · next hdomain =>
    obtain ⟨zeros, hfill, hzeros⟩ := fixedPoint_fill hwidth hdomain h
    refine ⟨zeros, bind_eq_ok.2 ⟨(), hcheck, ?_⟩, hzeros⟩
    rw [if_pos hdomain]
    exact hfill
  · next hdomain =>
    obtain ⟨x, hx, h⟩ := bind_eq_ok.1 h
    have hx : nearest f.spec a.value = .ok x := hx
    have hfinite : a.IsFinite form ↔ x.isFinite :=
      Argument.isFinite_iff (nearest_eq_ok.1 hx) fun hdomain' => absurd hdomain' hdomain
    refine ⟨f.flags.zero && x.isFinite, bind_eq_ok.2 ⟨(), hcheck, ?_⟩, by simp [hfinite]⟩
    rw [if_neg hdomain]
    exact bind_eq_ok.2 ⟨x, hx, double_fill hwidth h⟩

end

end Field

end UnitText
