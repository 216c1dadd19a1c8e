import UnitText.Number.Decimal
import UnitText.Proofs.Number.Rounding

/-!
# Decimal arithmetic

A decimal number is made exactly as long as its exponents are in range. The results of arithmetic
are rounded to the digits that arithmetic keeps: no number with so few digits is nearer, and the
result is exact only if it has no more digits itself.

## Main definitions

- `Decimal.Denotes` — the number that a finite decimal number is
- `Decimal.InRange` — the exponents that a decimal number can have
- `Decimal.IsKept` — the magnitudes that arithmetic has room for
- `Decimal.overflowLimit` — the least magnitude that arithmetic has no result for

## Main statements

- `Decimal.exists_rounded` — the result of arithmetic
- `Decimal.rounded_eq_error_iff` — when there is none
- `Decimal.neg_denotes_iff` — the numbers whose negation is exact
- `Decimal.exists_abs` — what is left of a decimal number without its sign
-/

namespace UnitText.Decimal

/-- The decimal number is finite, and it is the number `x`. -/
def Denotes (d : Decimal) (x : ℚ) : Prop :=
  ∃ (negative : Bool) (c : ℕ) (e : ℤ), d = finite negative c e ∧
    x = if negative then -(c * 10 ^ e : ℚ) else c * 10 ^ e

theorem Denotes.unique {d : Decimal} {x y : ℚ} (hx : d.Denotes x) (hy : d.Denotes y) : x = y := by
  obtain ⟨negative, c, e, rfl, rfl⟩ := hx
  obtain ⟨_, _, _, hd, rfl⟩ := hy
  cases hd
  rfl

/-- The size and the sign of a number. A zero has no sign, even if it is written with one. -/
theorem abs_eq_and_neg_iff {negative : Bool} {c : ℕ} {e : ℤ} {x : ℚ}
    (hx : x = if negative then -(c * 10 ^ e : ℚ) else c * 10 ^ e) :
    |x| = c * 10 ^ e ∧ ((negative && c != 0) = true ↔ x < 0) := by
  have hunit : (0 : ℚ) < 10 ^ e := zpow_pos (by norm_num) e
  have hsize : (0 : ℚ) ≤ c * 10 ^ e := mul_nonneg (Nat.cast_nonneg c) hunit.le
  have hzero : (0 : ℚ) < c * 10 ^ e ↔ c ≠ 0 := by
    rw [mul_pos_iff_of_pos_right hunit, Nat.cast_pos, Nat.pos_iff_ne_zero]
  subst hx
  cases negative with
  | false => exact ⟨abs_of_nonneg hsize, by simpa using hsize⟩
  | true =>
    rw [if_pos rfl, abs_neg, abs_of_nonneg hsize, neg_lt_zero, hzero]
    exact ⟨rfl, by simp⟩

/-- The exponents of the first and of the last digit are those of a decimal number. -/
def InRange (c : ℕ) (e : ℤ) : Prop := e + digitCount c - 1 ≤ maxExponent ∧ minExponent ≤ e

theorem exact_eq_ok {c : ℕ} {e : ℤ} (h : InRange c e) (negative : Bool) :
    exact negative c e = .ok (finite negative c e) := by
  obtain ⟨hmax, hmin⟩ := h
  rw [exact, if_neg]
  omega

theorem exact_eq_error {c : ℕ} {e : ℤ} (h : ¬InRange c e) (negative : Bool) :
    exact negative c e = .error (.signal .invalidOperation) := by
  rw [InRange] at h
  rw [exact, if_pos]
  omega

/-- The magnitude has room in the digits that arithmetic keeps. -/
def IsKept (x : ℚ) : Prop :=
  ∃ (c : ℕ) (e : ℤ), c < 10 ^ precision ∧ minResultExponent ≤ e ∧ x = c * 10 ^ e

/-- Numbers from here on are rounded to more than the greatest result of arithmetic. -/
def overflowLimit : ℚ :=
  (10 ^ precision - 1 / 2) * 10 ^ (maxResultExponent + 1 - precision)

theorem lt_overflowLimit {x : ℚ} (h : x < 10 ^ precision - 1 / 2) : x < overflowLimit := by
  refine h.trans_le (le_mul_of_one_le_right ?_ (one_le_zpow₀ (by norm_num) (by decide)))
  norm_num [precision]

section

variable {c : ℕ} {e : ℤ}

theorem lastPlace_eq (hc : c ≠ 0) : lastPlace 10 precision minResultExponent (c * 10 ^ e : ℚ) =
    max (e + digitCount c - precision) minResultExponent := by
  rw [lastPlace, log_mul_zpow hc]
  congr 1
  omega

/-- What arithmetic rounds to before it looks whether the result is too large. -/
theorem exists_roundsTo (hc : c ≠ 0) : ∃ (c' : ℕ) (e' : ℤ),
    (if e < max (e + digitCount c - precision) minResultExponent then
      (scaleRounded c (e - max (e + digitCount c - precision) minResultExponent),
        max (e + digitCount c - precision) minResultExponent)
    else (c, e)) = (c', e') ∧
    c' ≤ 10 ^ precision ∧ minResultExponent ≤ e' ∧ (c' = 0 → e' = minResultExponent) ∧
    RoundsTo 10 precision minResultExponent (c * 10 ^ e : ℚ) (c' * 10 ^ e') := by
  have hten : (0 : ℚ) < 10 := by norm_num
  have hx : (0 : ℚ) < c * 10 ^ e :=
    mul_pos (by exact_mod_cast Nat.pos_of_ne_zero hc) (zpow_pos hten e)
  rw [← lastPlace_eq hc]
  have hmin := le_lastPlace 10 precision minResultExponent (c * 10 ^ e : ℚ)
  split
  · have hround : RoundsTo 10 precision minResultExponent (c * 10 ^ e : ℚ)
        (scaleRounded c (e - lastPlace 10 precision minResultExponent (c * 10 ^ e)) *
          10 ^ lastPlace 10 precision minResultExponent (c * 10 ^ e : ℚ)) := by
      refine ⟨_, ?_, rfl⟩
      have hscaled := isRounded_scaleRounded c
        (e - lastPlace 10 precision minResultExponent (c * 10 ^ e))
      rwa [zpow_sub₀ hten.ne', ← mul_div_assoc] at hscaled
    refine ⟨_, _, rfl, ?_, hmin, fun hzero => ?_, hround⟩
    · have hle := hround.le_zpow (by decide)
      rw [zpow_add_natCast (by decide)] at hle
      exact_mod_cast le_of_mul_le_mul_right hle (zpow_pos hten _)
    · -- with a greater exponent the first of the digits that are kept is not zero
      by_contra hne
      have hle := hround.zpow_le (by decide) (by decide) hx (by omega)
      rw [hzero, Nat.cast_zero, zero_mul] at hle
      exact absurd hle (not_le.2 (zpow_pos hten _))
  · next hle =>
    have hdigits : digitCount c ≤ precision := by
      rw [lastPlace_eq hc] at hle
      omega
    have hlt : c < 10 ^ precision := lt_pow_of_digitCount_le hdigits
    refine ⟨c, e, rfl, hlt.le, by omega, fun h => absurd h hc, ?_⟩
    obtain ⟨j, hj⟩ := Int.eq_ofNat_of_zero_le
      (show 0 ≤ e - lastPlace 10 precision minResultExponent (c * 10 ^ e) by omega)
    refine .of_exact (n := c * 10 ^ j) (by decide) ?_
    have hsum : e = lastPlace 10 precision minResultExponent (c * 10 ^ e) + j := by omega
    nth_rewrite 1 [hsum]
    rw [Nat.cast_ofNat, zpow_add₀ hten.ne', zpow_natCast]
    push_cast
    ring

/-- **Arithmetic rounds to the nearest.** A result has no more digits than are kept, and is a number
rounded to so many digits; there is none if it is too large. -/
theorem exists_rounded (hc : c ≠ 0) (negative : Bool) : ∃ (c' : ℕ) (e' : ℤ),
    c' < 10 ^ precision ∧ minResultExponent ≤ e' ∧
    RoundsTo 10 precision minResultExponent (c * 10 ^ e : ℚ) (c' * 10 ^ e') ∧
    rounded negative c e = if (10 : ℚ) ^ (maxResultExponent + 1) ≤ c' * 10 ^ e' then
      .error (.signal .overflow) else .ok (finite negative c' e') := by
  obtain ⟨c₁, e₁, hpair, hle, hmin, hzero, hround⟩ := exists_roundsTo (e := e) hc
  obtain ⟨c₂, e₂, hcarried, hlt, hcases, hvalue⟩ :=
    exists_carried (b := 10) (p := precision) (by decide) (by decide) hle e₁
  rw [Nat.cast_ofNat] at hvalue
  refine ⟨c₂, e₂, hlt, by omega, hvalue ▸ hround, ?_⟩
  have hrounded : rounded negative c e =
      if maxResultExponent < e₂ + digitCount c₂ - 1 then .error (.signal .overflow)
      else .ok (finite negative c₂ e₂) := by
    simp only [rounded, if_neg hc, hpair, hcarried]
  have hlimit : maxResultExponent < e₂ + digitCount c₂ - 1 ↔
      (10 : ℚ) ^ (maxResultExponent + 1) ≤ c₂ * 10 ^ e₂ := by
    by_cases hnone : c₂ = 0
    · -- a carry leaves a digit that is not zero
      obtain ⟨rfl, rfl⟩ := hcases.resolve_right fun h => absurd (h.1.symm.trans hnone) (by decide)
      have hleast := hzero hnone
      have hdigits : digitCount c₂ = 1 := by
        rw [hnone]
        rfl
      have hbounds : minResultExponent < maxResultExponent := by decide
      constructor
      · intro hgt
        omega
      · intro hgt
        rw [hnone, Nat.cast_zero, zero_mul] at hgt
        exact absurd hgt (not_le.2 (zpow_pos (by norm_num) _))
    · have hpos : (0 : ℚ) < c₂ * 10 ^ e₂ :=
        mul_pos (by exact_mod_cast Nat.pos_of_ne_zero hnone) (zpow_pos (by norm_num) _)
      have hlog := Int.zpow_le_iff_le_log (b := 10) (by decide) (x := maxResultExponent + 1) hpos
      rw [log_mul_zpow hnone, Nat.cast_ofNat] at hlog
      rw [hlog]
      omega
  rw [hrounded]
  simp only [hlimit]

/-- Arithmetic has no result exactly from the limit on. -/
theorem rounded_eq_error_iff (negative : Bool) {f : Failure} : rounded negative c e = .error f ↔
    f = .signal .overflow ∧ overflowLimit ≤ c * 10 ^ e := by
  by_cases hc : c = 0
  · subst hc
    have hpos : 0 < overflowLimit := by
      refine mul_pos ?_ (zpow_pos (by norm_num) _)
      norm_num [precision]
    rw [rounded, if_pos rfl, Nat.cast_zero, zero_mul]
    exact ⟨nofun, fun h => absurd h.2 (not_le.2 hpos)⟩
  · obtain ⟨c', e', -, -, hround, hrounded⟩ := exists_rounded (e := e) hc negative
    have hx : (0 : ℚ) < c * 10 ^ e :=
      mul_pos (by exact_mod_cast Nat.pos_of_ne_zero hc) (zpow_pos (by norm_num) e)
    have hlimit := hround.zpow_le_iff (by decide) (by decide) (by decide) hx
      (k := maxResultExponent + 1 - precision) (by decide)
    rw [sub_add_cancel, Nat.cast_ofNat] at hlimit
    have hoverflow : (10 : ℚ) ^ (maxResultExponent + 1) ≤ c' * 10 ^ e' ↔
        overflowLimit ≤ c * 10 ^ e := by
      rw [hlimit, overflowLimit]
      push_cast
      rfl
    rw [hrounded]
    simp only [hoverflow]
    split
    · next h =>
      constructor
      · rintro ⟨⟩
        exact ⟨rfl, h⟩
      · rintro ⟨rfl, -⟩
        rfl
    · next h => exact ⟨nofun, fun hf => absurd hf.2 h⟩

/-- A result is a number that arithmetic keeps, and none of these is nearer. -/
theorem nearest_of_rounded {negative : Bool} {d : Decimal} (h : rounded negative c e = .ok d) :
    ∃ (c' : ℕ) (e' : ℤ), d = finite negative c' e' ∧ IsKept (c' * 10 ^ e') ∧
      ∀ y, IsKept y → |(c * 10 ^ e : ℚ) - c' * 10 ^ e'| ≤ |c * 10 ^ e - y| := by
  by_cases hc : c = 0
  · subst hc
    rw [rounded, if_pos rfl] at h
    cases h
    refine ⟨0, _, rfl, ⟨0, minResultExponent, by decide, le_rfl, by simp⟩, fun y _ => ?_⟩
    simp
  · obtain ⟨c', e', hlt, hmin, hround, hrounded⟩ := exists_rounded (e := e) hc negative
    rw [hrounded] at h
    split at h
    · cases h
    · cases h
      have hx : (0 : ℚ) < c * 10 ^ e :=
        mul_pos (by exact_mod_cast Nat.pos_of_ne_zero hc) (zpow_pos (by norm_num) e)
      refine ⟨c', e', rfl, ⟨c', e', hlt, hmin, rfl⟩, ?_⟩
      rintro y ⟨k, q, hk, hq, rfl⟩
      exact hround.abs_sub_le (by decide) (by decide) hx hk hq

/-! ## Negation -/

theorem neg_finite (c : ℕ) (e : ℤ) : (finite false c e).neg = rounded (c != 0) c e := rfl

theorem neg_eq_error_iff {f : Failure} : (finite false c e).neg = .error f ↔
    f = .signal .overflow ∧ overflowLimit ≤ c * 10 ^ e := rounded_eq_error_iff _

/-- A negated number is minus a number that arithmetic keeps, and none of these is nearer. -/
theorem denotes_of_neg {d : Decimal} (h : (finite false c e).neg = .ok d) :
    ∃ w : ℚ, d.Denotes (-w) ∧ IsKept w ∧
      ∀ y, IsKept y → |(c * 10 ^ e : ℚ) - w| ≤ |c * 10 ^ e - y| := by
  rw [neg_finite] at h
  obtain ⟨c', e', rfl, hkept, hnearest⟩ := nearest_of_rounded h
  refine ⟨_, ⟨_, c', e', rfl, ?_⟩, hkept, hnearest⟩
  by_cases hc : c = 0
  · -- zero stays zero, which has no minus
    have hzero := hnearest 0 ⟨0, minResultExponent, by decide, le_rfl, by simp⟩
    rw [hc, Nat.cast_zero, zero_mul, sub_zero, abs_zero, zero_sub, abs_neg, abs_nonpos_iff] at hzero
    rw [hzero, neg_zero, ite_self]
  · rw [if_pos (bne_iff_ne.2 hc)]

/-- Negation is exact for the numbers that arithmetic keeps, and for no others. -/
theorem neg_denotes_iff {d : Decimal} (h : (finite false c e).neg = .ok d) :
    d.Denotes (-(c * 10 ^ e)) ↔ IsKept (c * 10 ^ e) := by
  obtain ⟨w, hw, hkept, hnearest⟩ := denotes_of_neg h
  constructor
  · intro hself
    rwa [neg_injective (hself.unique hw)]
  · intro hself
    have hnear := hnearest _ hself
    rw [sub_self, abs_zero, abs_nonpos_iff, sub_eq_zero] at hnear
    rwa [hnear]

/-! ## Absolute values -/

/-- An absolute value is arithmetic, and rounds to the digits that arithmetic keeps. -/
theorem exists_abs (negative : Bool) (hlimit : (c * 10 ^ e : ℚ) < overflowLimit) :
    ∃ (c' : ℕ) (e' : ℤ), (finite negative c e).abs = .ok (finite false c' e') ∧
      RoundsTo 10 precision minResultExponent (c * 10 ^ e : ℚ) (c' * 10 ^ e') ∧
      ((c' * 10 ^ e' : ℚ) = c * 10 ^ e ↔ IsKept (c * 10 ^ e)) := by
  by_cases hc : c = 0
  · subst hc
    refine ⟨0, _, rfl, ?_, ?_⟩
    · rw [Nat.cast_zero, zero_mul, zero_mul]
      exact .zero (by decide) le_rfl (mul_pos (by norm_num) (zpow_base_pos (by decide) _))
    · rw [Nat.cast_zero, zero_mul, zero_mul]
      exact ⟨fun _ => ⟨0, minResultExponent, by decide, le_rfl, by simp⟩, fun _ => rfl⟩
  · obtain ⟨c', e', hlt, hmin, hround, hrounded⟩ := exists_rounded (e := e) hc false
    have hx : (0 : ℚ) < c * 10 ^ e :=
      mul_pos (by exact_mod_cast Nat.pos_of_ne_zero hc) (zpow_pos (by norm_num) e)
    have habs : (finite negative c e).abs = rounded false c e := rfl
    split at hrounded
    · exact absurd ((rounded_eq_error_iff false).1 hrounded).2 (not_le.2 hlimit)
    · refine ⟨c', e', habs.trans hrounded, hround, fun h => ⟨c', e', hlt, hmin, h.symm⟩, ?_⟩
      rintro ⟨k, q, hk, hq, hself⟩
      exact hround.eq_self (by decide) (by decide) hx hk hq (by exact_mod_cast hself)

theorem abs_eq_error (negative : Bool) (hlimit : overflowLimit ≤ (c * 10 ^ e : ℚ)) :
    (finite negative c e).abs = .error (.signal .overflow) :=
  (rounded_eq_error_iff false).2 ⟨rfl, hlimit⟩

end

end UnitText.Decimal
