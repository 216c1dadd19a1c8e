import UnitText.Proofs.Number.Rounding
import UnitText.Proofs.Numeral.Read
import UnitText.Proofs.Result
import Mathlib.Algebra.Field.Rat
import Mathlib.Data.Int.CharZero
import Mathlib.Data.Nat.Cast.Order.Ring
import Mathlib.Tactic.FieldSimp
import Mathlib.Tactic.NormNum

/-!
# Integers that numerals write

A numeral writes a rational number: the digits before the point and those after it, times a power of
ten, with a sign. It is read as an integer if that number is one, and is refused otherwise. Nothing
is rounded on the way.

## Main definitions

- `Numeral.value` — the number that a numeral writes
- `Numeral.IsExact` — the exponent of the literal is in the range of decimal numbers

## Main statements

- `Decimal.integral_eq`, `Decimal.isIntegral_of_eq` — integers among the multiples of powers of ten
- `Numeral.toInteger_eq_ok_iff` — the integer that a numeral writes
- `parse_integer_exact` — the texts that are read as integers
-/

namespace UnitText

/-! ## Integral decimal numbers -/

namespace Decimal

variable {c : Nat} {e : Int}

/-- An integral decimal number is a natural number. -/
theorem integral_eq (h : IsIntegral c e) : (integral c e : ℚ) = c * 10 ^ e := by
  rw [integral]
  split
  · next hc => simp [hc]
  · next hc =>
    rcases h with hzero | he | ⟨-, hmod⟩
    · exact absurd hzero hc
    · obtain ⟨k, rfl⟩ := Int.eq_ofNat_of_zero_le he
      simp
    · obtain ⟨k, hk | rfl⟩ : ∃ k : Nat, e = k ∨ e = -(k : Int) := Int.eq_nat_or_neg e
      · subst hk
        simp
      · rw [neg_neg, Int.toNat_natCast] at hmod ⊢
        obtain ⟨n, rfl⟩ := Nat.dvd_of_mod_eq_zero hmod
        have hpos : 0 < 10 ^ k := Nat.pow_pos (by decide)
        have hzero : (-(k : Int)).toNat = 0 := by omega
        rw [hzero, Nat.pow_zero, Nat.mul_one, Nat.mul_div_cancel_left n hpos, zpow_neg,
          zpow_natCast]
        push_cast
        field_simp

/-- No other decimal number is an integer. -/
theorem isIntegral_of_eq {n : Int} (h : (c * 10 ^ e : ℚ) = n) : IsIntegral c e := by
  by_cases hc : c = 0
  · exact .inl hc
  by_cases he : 0 ≤ e
  · exact .inr (.inl he)
  obtain ⟨k, hk⟩ := Int.eq_ofNat_of_zero_le (show 0 ≤ -e by omega)
  obtain rfl : e = -(k : Int) := by omega
  -- the coefficient is a multiple of the power of ten, so it has more digits
  have hmul : (c : Int) = 10 ^ k * n := by
    rw [zpow_neg, zpow_natCast] at h
    field_simp at h
    exact_mod_cast h
  have hdvd : 10 ^ k ∣ c := by
    have hint : ((10 ^ k : Nat) : Int) ∣ c := ⟨n, by rw [hmul]; push_cast; rfl⟩
    exact Int.natCast_dvd_natCast.1 hint
  refine .inr (.inr ⟨?_, ?_⟩)
  · rw [neg_neg, Int.toNat_natCast]
    exact lt_digitCount (Nat.le_of_dvd (Nat.pos_of_ne_zero hc) hdvd)
  · rw [neg_neg, Int.toNat_natCast]
    exact Nat.mod_eq_zero_of_dvd hdvd

end Decimal

/-! ## The numbers that numerals write -/

/-- The number that a decimal literal writes: the digits before the point and those after it, times
a power of ten. -/
def DecimalLiteral.value (l : DecimalLiteral) : ℚ :=
  (digitsValue 10 l.whole + digitsValue 10 l.fraction / 10 ^ (l.fraction.length : Int)) *
    10 ^ l.exponent

theorem DecimalLiteral.value_eq (l : DecimalLiteral) :
    l.value = l.coefficient * 10 ^ l.power := by
  have hten : (10 : ℚ) ≠ 0 := by norm_num
  rw [value, coefficient, power, digitsValue_append, zpow_sub₀ hten, zpow_natCast]
  push_cast
  field_simp

theorem DecimalLiteral.value_eq_integral (l : DecimalLiteral)
    (h : Decimal.IsIntegral l.coefficient l.power) :
    l.value = Decimal.integral l.coefficient l.power := by
  rw [l.value_eq, Decimal.integral_eq h]

/-- The number that a literal writes. -/
def Literal.value : Literal → ℚ
  | .radix n => n
  | .decimal l => l.value

/-- The exponent of a decimal literal is in the range of decimal numbers. -/
def Literal.IsExact : Literal → Prop
  | .radix _ => True
  | .decimal l => ∃ d, Decimal.exact false l.coefficient l.power = .ok d

namespace Numeral

/-- The number that a numeral writes. -/
def value (n : Numeral) : ℚ := if n.negative then -n.literal.value else n.literal.value

theorem signed_eq (n : Numeral) {k : Nat} (h : n.literal.value = k) :
    (n.signed k : ℚ) = n.value := by
  rw [signed, value, h]
  split <;> simp

/-- If a numeral writes an integer, so does its literal. -/
theorem exists_literal_value_eq {n : Numeral} {k : Int} (h : n.value = k) :
    ∃ m : Int, n.literal.value = m := by
  rw [value] at h
  split at h
  · exact ⟨-k, by rw [Int.cast_neg, ← h, neg_neg]⟩
  · exact ⟨k, h⟩

/-- A numeral is read as the integer that it writes. -/
theorem toInteger_eq_ok {n : Numeral} {k : Int} (hexact : n.literal.IsExact) (h : n.value = k)
    (text : Chars) : n.toInteger text = .ok k := by
  obtain ⟨negative, literal⟩ := n
  cases literal with
  | radix m =>
    have hsigned := signed_eq ⟨negative, .radix m⟩ rfl
    exact congrArg Except.ok (Int.cast_injective (hsigned.trans h))
  | decimal l =>
    obtain ⟨d, hd⟩ := hexact
    obtain ⟨m, hm⟩ := exists_literal_value_eq h
    have hvalue : (l.coefficient * 10 ^ l.power : ℚ) = m := l.value_eq.symm.trans hm
    have hintegral := Decimal.isIntegral_of_eq hvalue
    have hsigned := signed_eq ⟨negative, .decimal l⟩ (l.value_eq_integral hintegral)
    refine bind_eq_ok.2 ⟨d, hd, ?_⟩
    rw [if_pos hintegral]
    exact congrArg Except.ok (Int.cast_injective (hsigned.trans h))

/-- A numeral that is read as an integer writes that integer. -/
theorem isExact_of_toInteger {n : Numeral} {text : Chars} {k : Int}
    (h : n.toInteger text = .ok k) : n.literal.IsExact ∧ n.value = k := by
  obtain ⟨negative, literal⟩ := n
  cases literal with
  | radix m =>
    obtain rfl := Except.ok.inj h
    exact ⟨trivial, (signed_eq ⟨negative, .radix m⟩ rfl).symm⟩
  | decimal l =>
    obtain ⟨d, hd, h⟩ := bind_eq_ok.1 h
    split at h
    · next hintegral =>
      obtain rfl := pure_eq_ok.1 h
      exact ⟨⟨d, hd⟩, (signed_eq ⟨negative, .decimal l⟩ (l.value_eq_integral hintegral)).symm⟩
    · cases h

theorem toInteger_eq_ok_iff {n : Numeral} {text : Chars} {k : Int} :
    n.toInteger text = .ok k ↔ n.literal.IsExact ∧ n.value = k :=
  ⟨isExact_of_toInteger, fun ⟨hexact, h⟩ => toInteger_eq_ok hexact h text⟩

/-- A numeral that writes no integer is refused. -/
theorem toInteger_eq_error {n : Numeral} (hexact : n.literal.IsExact)
    (h : ∀ k : Int, n.value ≠ k) (text : Chars) :
    n.toInteger text = .error (.problem (.notInteger text)) := by
  obtain ⟨negative, literal⟩ := n
  cases literal with
  | radix m => exact absurd (signed_eq ⟨negative, .radix m⟩ rfl).symm (h _)
  | decimal l =>
    obtain ⟨d, hd⟩ := hexact
    have hintegral : ¬Decimal.IsIntegral l.coefficient l.power := by
      intro hintegral
      exact h _ (signed_eq ⟨negative, .decimal l⟩ (l.value_eq_integral hintegral)).symm
    have hbind : toInteger text ⟨negative, .decimal l⟩ =
        if Decimal.IsIntegral l.coefficient l.power then
          .ok (signed ⟨negative, .decimal l⟩ (Decimal.integral l.coefficient l.power))
        else .error (.problem (.notInteger text)) := by
      rw [toInteger]
      simp only [hd]
      rfl
    rw [hbind, if_neg hintegral]

end Numeral

/-! ## Texts that are integers -/

section

variable {t : Text} {cs : Chars} {s : Styles}

theorem parseInteger_eq_error (ht : t.decode = .ok cs) (h : ¬∃ n : Numeral, n.IsWritten s cs) :
    ∃ offset, parseInteger s t = .error (.problem (.notNumber cs offset)) :=
  decode_ofChars_eq_error ht h fun cs n => n.toInteger cs

theorem parse_integer_eq (s : Styles) (t : Text) :
    parse .integer (some s) (.text t) = Value.integer <$> parseInteger s t := rfl

/-- **Integers are read exactly.** A text of any container, under any styles, is read as an integer
if and only if it writes a numeral of its grammar whose exponent is in range, and the number that
the numeral writes is that integer. A text that writes no numeral, or one that is in range but no
integer, is refused as an invalid number. -/
theorem parse_integer_exact (s : Styles) (ht : t.decode = .ok cs) :
    (∀ k : Int, parse .integer (some s) (.text t) = .ok (.integer k) ↔
      ∃ n : Numeral, n.IsWritten s cs ∧ n.literal.IsExact ∧ n.value = k) ∧
    ((∀ n : Numeral, n.IsWritten s cs → n.literal.IsExact ∧ ∀ k : Int, n.value ≠ k) →
      ∃ p : Problem, parse .integer (some s) (.text t) = .error (.problem p) ∧
        p.category = .invalidNumber) := by
  rw [parse_integer_eq]
  by_cases hwritten : ∃ n : Numeral, n.IsWritten s cs
  · obtain ⟨n, hn⟩ := hwritten
    rw [parseInteger_eq ht hn]
    refine ⟨fun k => ?_, fun hall => ?_⟩
    · constructor
      · intro h
        obtain ⟨m, hm, hk⟩ := bind_eq_ok.1 h
        obtain rfl := Value.integer.inj (pure_eq_ok.1 hk)
        exact ⟨n, hn, Numeral.toInteger_eq_ok_iff.1 hm⟩
      · rintro ⟨m, hm, hk⟩
        obtain rfl := hn.unique hm
        rw [Numeral.toInteger_eq_ok_iff.2 hk]
        rfl
    · obtain ⟨hexact, hvalue⟩ := hall n hn
      rw [Numeral.toInteger_eq_error hexact hvalue]
      exact ⟨_, rfl, rfl⟩
  · obtain ⟨offset, herror⟩ := parseInteger_eq_error ht hwritten
    rw [herror]
    refine ⟨fun k => ⟨nofun, ?_⟩, fun _ => ⟨_, rfl, rfl⟩⟩
    rintro ⟨n, hn, -⟩
    exact absurd ⟨n, hn⟩ hwritten

/-- Grouped digits of two scripts with places and an exponent are an integer; a half is none. -/
theorem parse_integer_exact_grouped :
    (Text.ofString " -1,0٠0.0e1\n").decode = .ok (Chars.ofString " -1,0٠0.0e1\n") ∧
    parse .integer (some .any) (.text (.ofString " -1,0٠0.0e1\n")) = .ok (.integer (-10000)) ∧
    (Text.ofString "1.5").decode = .ok (Chars.ofString "1.5") ∧
    ∃ p : Problem, parse .integer (some .number) (.text (.ofString "1.5")) = .error (.problem p) ∧
      p.category = .invalidNumber := by
  have hgrouped : Numeral.read .any (Chars.ofString " -1,0٠0.0e1\n") = .ok {
      negative := true
      literal := .decimal { whole := [1, 0, 0, 0], fraction := [0], exponent := 1 } } := by
    decide +kernel
  have hhalf : Numeral.read .number (Chars.ofString "1.5") = .ok {
      negative := false
      literal := .decimal { whole := [1], fraction := [5], exponent := 0 } } := by
    decide +kernel
  refine ⟨by decide +kernel, ?_, by decide +kernel, ?_⟩
  · refine ((parse_integer_exact .any (by decide +kernel)).1 (-10000)).2
      ⟨_, Numeral.read_sound hgrouped, ⟨_, rfl⟩, ?_⟩
    norm_num [Numeral.value, Literal.value, DecimalLiteral.value, digitsValue]
  · have hdecode : (Text.ofString "1.5").decode = .ok (Chars.ofString "1.5") := by decide +kernel
    refine (parse_integer_exact .number hdecode).2 ?_
    intro n hn
    obtain rfl := hn.unique (Numeral.read_sound hhalf)
    refine ⟨⟨_, rfl⟩, fun k hk => ?_⟩
    have hten : (15 : ℚ) = 10 * k := by
      rw [← hk]
      norm_num [Numeral.value, Literal.value, DecimalLiteral.value, digitsValue]
    have hint : (15 : Int) = 10 * k := by exact_mod_cast hten
    omega

end

end UnitText
