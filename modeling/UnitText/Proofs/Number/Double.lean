import UnitText.Proofs.Number.Nearest
import UnitText.Value.Number

/-!
# Floating-point numbers and their bits

The sign of a number is its highest bit, which the bits of a magnitude never reach. So a number that
was read from an integer has the sign of the integer. A finite number is given by its sign, its
significand and its exponent, and reading any quotient or decimal number that has its magnitude
gives the number again.

## Main definitions

- `Double.magnitude` — the number that a finite one is, without its sign
- `Double.overflowLimit` — the least number that is out of range

## Main statements

- `Double.negative_ofInteger` — the sign of the number nearest to an integer
- `Double.negative_narrowed` — the sign of a number that was held in a narrower format
- `Double.ofRatio?_eq_none_iff` — the quotients that are out of range
- `Double.ofDecimal_congr` — equal decimal numbers are read as the same number
- `Double.ofDecimal_eq_self` — a number is read from its magnitude
-/

namespace UnitText.Double

variable {x : Double}

/-! ## Signs -/

theorem negative_ofBits {n : Nat} (h : n < 2 ^ 64) : (ofBits n).negative = decide (2 ^ 63 ≤ n) := by
  simp only [negative, ofBits, Nat.mod_eq_of_lt h]

@[simp] theorem negative_abs (x : Double) : x.abs.negative = false := by
  have hlt : x.bits % 2 ^ 63 < 2 ^ 63 := Nat.mod_lt _ (by decide)
  rw [abs, negative_ofBits (by omega)]
  simpa using hlt

theorem negative_signed {negative : Bool} {magnitude : Nat} (h : magnitude < 2 ^ 63) :
    (signed negative magnitude).negative = negative := by
  cases negative with
  | true =>
    rw [signed, negative_ofBits (by simp only [↓reduceIte]; omega)]
    simp
  | false =>
    rw [signed, negative_ofBits (by simp only [Bool.false_eq_true, ↓reduceIte]; omega)]
    simpa using h

/-- The power of two that limits double precision, in units of a place. -/
theorem two_pow_limit {q : ℤ} {p : ℕ} (h : q + p = 1024) :
    (2 : ℚ) ^ BinaryFormat.double.limit = ((2 ^ p : ℕ) : ℚ) * 2 ^ q := by
  have hsum := zpow_add_natCast (b := 2) (by decide) q p
  rw [h, Nat.cast_ofNat] at hsum
  rw [← hsum]
  exact (zpow_natCast 2 1024).symm

/-- The exponents of the numbers in range. -/
theorem exponent_le_of_lt_limit {m : ℕ} {q : ℤ} (h : BinaryFormat.double.Canonical m q)
    (hlimit : (m * 2 ^ q : ℚ) < 2 ^ BinaryFormat.double.limit) : q ≤ 971 := by
  by_contra hgt
  have hfull : 2 ^ 52 ≤ m := h.full (by simp only [BinaryFormat.double]; omega)
  have hlarge : (2 : ℚ) ^ BinaryFormat.double.limit ≤ m * 2 ^ q := calc
    (2 : ℚ) ^ BinaryFormat.double.limit = (2 ^ 52 : ℕ) * 2 ^ (972 : ℤ) :=
      two_pow_limit (by decide)
    _ ≤ m * 2 ^ (972 : ℤ) :=
      mul_le_mul_of_nonneg_right (by exact_mod_cast hfull) (zpow_pos (by norm_num) _).le
    _ ≤ m * 2 ^ q :=
      mul_le_mul_of_nonneg_left (zpow_le_zpow_right₀ (by norm_num) (by omega)) (Nat.cast_nonneg m)
  exact absurd hlimit (not_lt.2 hlarge)

/-- A significand and an exponent in range leave the highest bit free. -/
theorem magnitudeBits_lt {m : ℕ} {q : ℤ} (h : BinaryFormat.double.Canonical m q)
    (hlimit : (m * 2 ^ q : ℚ) < 2 ^ BinaryFormat.double.limit) :
    (q + 1074).toNat * 2 ^ 52 + m < 2 ^ 63 := by
  have hm : m < 2 ^ 53 := h.lt
  have hq := exponent_le_of_lt_limit h hlimit
  omega

/-- The number nearest to a quotient has the sign that is asked for. -/
theorem negative_ofRatio? {negative : Bool} {num den : ℕ} (hden : den ≠ 0)
    (h : ofRatio? negative num den = some x) : x.negative = negative := by
  rw [ofRatio?, Option.map_eq_some_iff] at h
  obtain ⟨⟨m, q⟩, hnearest, rfl⟩ := h
  obtain ⟨hcanonical, hlimit⟩ := BinaryFormat.canonical_of_nearest? (by decide) hden hnearest
  exact negative_signed (magnitudeBits_lt hcanonical hlimit)

theorem negative_ofRatio (negative : Bool) (num : ℕ) {den : ℕ} (hden : den ≠ 0) :
    (ofRatio negative num den).negative = negative := by
  rw [ofRatio]
  cases hx : ofRatio? negative num den with
  | none => exact negative_signed (by decide)
  | some x => exact negative_ofRatio? hden hx

/-- The number nearest to an integer has its sign. -/
theorem negative_ofInteger {n : Int} (h : ofInteger n = .ok x) :
    x.negative = decide (n < 0) := by
  unfold ofInteger at h
  split at h
  · next y hy =>
    obtain rfl := Except.ok.inj h
    exact negative_ofRatio? Nat.one_ne_zero hy
  · cases h

theorem negative_quieted (x : Double) : x.quieted.negative = x.negative := by
  have hor : x.bits ||| 2 ^ 51 < 2 ^ 64 := Nat.or_lt_two_pow x.bits_lt (by decide)
  unfold quieted
  split
  · rw [negative_ofBits hor, negative, decide_eq_decide]
    refine ⟨fun h => ?_, fun h => h.trans Nat.left_le_or⟩
    by_contra hlt
    exact absurd h (not_le.2 (Nat.or_lt_two_pow (not_le.1 hlt) (by decide)))
  · rfl

/-- A number that was held in a narrower format keeps its sign. -/
theorem negative_narrowed {f : BinaryFormat} (hf : 2 ≤ f.precision) (x : Double) :
    (x.narrowed f).negative = x.negative := by
  have hfraction : x.fractionBits < 2 ^ 52 := Nat.mod_lt _ (by decide)
  unfold narrowed
  split
  · split
    · exact negative_signed (by decide)
    · exact negative_ofRatio _ _ (Nat.two_pow_pos _).ne'
  · split
    · refine negative_signed ?_
      have hunit : 2 ^ (53 - f.precision) ≤ 2 ^ 51 := Nat.pow_le_pow_right (by decide) (by omega)
      have hkept := Nat.div_mul_le_self x.fractionBits (2 ^ (53 - f.precision))
      simp only [heldPayload]
      omega
    · rfl

/-! ## Range -/

/-- Numbers from here on are rounded to a power of two that is out of range. -/
def overflowLimit : ℚ := (2 ^ 53 - 1 / 2) * 2 ^ (971 : ℤ)

theorem ofRatio?_eq_none_iff {num den : ℕ} (hden : den ≠ 0) (negative : Bool) :
    ofRatio? negative num den = none ↔ overflowLimit ≤ num / den := by
  rw [ofRatio?, Option.map_eq_none_iff,
    BinaryFormat.nearest?_eq_none_iff (by decide) (by decide) hden]
  exact Iff.rfl

theorem one_lt_overflowLimit : 1 < overflowLimit := by
  have hone : (1 : ℚ) ≤ 2 ^ (971 : ℤ) := one_le_zpow₀ (by norm_num) (by decide)
  exact one_lt_mul_of_lt_of_le (by norm_num) hone

theorem overflowLimit_le : overflowLimit ≤ 2 ^ BinaryFormat.double.limit := by
  rw [two_pow_limit (q := 971) (p := 53) (by decide), overflowLimit]
  refine mul_le_mul_of_nonneg_right ?_ (zpow_pos (by norm_num) _).le
  norm_num

/-! ## Parts -/

/-- The number that a finite one is, without its sign. -/
def magnitude (x : Double) : ℚ := x.significand * 2 ^ x.exponent

theorem canonical (x : Double) : BinaryFormat.double.Canonical x.significand x.exponent := by
  have hfraction : x.fractionBits < 2 ^ 52 := Nat.mod_lt _ (by decide)
  unfold significand exponent
  constructor <;> simp only [BinaryFormat.double] <;> split <;> omega

theorem magnitude_lt_limit (hx : x.isFinite) : x.magnitude < 2 ^ BinaryFormat.double.limit := by
  have hexponent : x.exponentBits < 2047 := of_decide_eq_true hx
  have hq : x.exponent ≤ 971 := by
    unfold exponent
    split <;> omega
  calc x.magnitude < (2 ^ 53 : ℕ) * 2 ^ x.exponent :=
        mul_lt_mul_of_pos_right (by exact_mod_cast x.canonical.lt) (zpow_pos (by norm_num) _)
    _ ≤ (2 ^ 53 : ℕ) * 2 ^ (971 : ℤ) :=
        mul_le_mul_of_nonneg_left (zpow_le_zpow_right₀ (by norm_num) hq) (Nat.cast_nonneg _)
    _ = 2 ^ BinaryFormat.double.limit := (two_pow_limit (by decide)).symm

/-- A power of ten below half of the least number. -/
theorem ten_zpow_le : ((10 : ℕ) : ℚ) ^ (-400 : ℤ) ≤ 2 ^ (-1075 : ℤ) := by
  have hpow : ((2 ^ 1075 : ℕ) : ℚ) ≤ ((10 ^ 400 : ℕ) : ℚ) := Nat.cast_le.2 (by decide +kernel)
  rw [Nat.cast_pow, Nat.cast_pow, Nat.cast_ofNat, Nat.cast_ofNat] at hpow
  rw [Nat.cast_ofNat, zpow_neg, zpow_neg, zpow_ofNat, zpow_ofNat]
  exact inv_anti₀ (by positivity) hpow

/-- A power of ten beyond the range. -/
theorem limit_le_ten_zpow :
    (2 : ℚ) ^ BinaryFormat.double.limit ≤ ((10 : ℕ) : ℚ) ^ (400 : ℤ) := by
  have hpow : ((2 ^ 1024 : ℕ) : ℚ) ≤ ((10 ^ 400 : ℕ) : ℚ) := Nat.cast_le.2 (by decide +kernel)
  rw [Nat.cast_pow, Nat.cast_pow, Nat.cast_ofNat, Nat.cast_ofNat] at hpow
  rw [Nat.cast_ofNat, zpow_ofNat]
  exact hpow

/-- All numbers but zero are between these powers of ten. -/
theorem magnitude_bounds (hx : x.isFinite) (hzero : x.significand ≠ 0) :
    ((10 : ℕ) : ℚ) ^ (-400 : ℤ) ≤ x.magnitude ∧ x.magnitude < ((10 : ℕ) : ℚ) ^ (400 : ℤ) := by
  refine ⟨ten_zpow_le.trans ?_, (magnitude_lt_limit hx).trans_le limit_le_ten_zpow⟩
  have hone : (1 : ℚ) ≤ x.significand := by exact_mod_cast Nat.pos_of_ne_zero hzero
  have hexponent : -1074 ≤ x.exponent := x.canonical.le
  calc (2 : ℚ) ^ (-1075 : ℤ) ≤ 2 ^ x.exponent := zpow_le_zpow_right₀ (by norm_num) (by omega)
    _ ≤ x.magnitude := le_mul_of_one_le_left (zpow_pos (by norm_num) _).le hone

/-- Sign, significand and exponent are all there is in a number. -/
theorem ofParts_eq_self (x : Double) : ofParts x.negative x.significand x.exponent = x := by
  have hbits : (if x.negative then 2 ^ 63 else 0) +
      ((x.exponent + 1074).toNat * 2 ^ 52 + x.significand) = x.bits := by
    have hlt := x.bits_lt
    have hsplit : (x.exponent + 1074).toNat * 2 ^ 52 + x.significand =
        x.exponentBits * 2 ^ 52 + x.fractionBits := by
      unfold exponent significand
      split <;> omega
    simp only [hsplit, negative, exponentBits, fractionBits, decide_eq_true_eq]
    split <;> omega
  obtain ⟨bits, hlt⟩ := x
  rw [ofParts, signed, hbits, ofBits]
  simp only [Nat.mod_eq_of_lt hlt]

/-! ## Quotients and decimal numbers -/

section

variable {c c' : ℕ} {e e' : ℤ}

theorem ofRatio?_eq_self (hx : x.isFinite) (hzero : x.significand ≠ 0) {num den : ℕ}
    (hden : den ≠ 0) (h : (num / den : ℚ) = x.magnitude) :
    ofRatio? x.negative num den = some x := by
  rw [ofRatio?, BinaryFormat.nearest?_eq_some (by decide) x.canonical (magnitude_lt_limit hx) hzero
    hden h]
  exact congrArg some x.ofParts_eq_self

theorem ofDecimal_zero (negative : Bool) (e : ℤ) :
    ofDecimal negative 0 e = signed negative 0 := by
  rw [ofDecimal, if_pos (.inl rfl)]

/-- The zeros are given by their signs. -/
theorem signed_zero_eq_self (hzero : x.significand = 0) : signed x.negative 0 = x := by
  have hexponent : x.exponent = -1074 := by
    unfold significand at hzero
    split at hzero
    · next hbits => rw [exponent, if_pos hbits]
    · omega
  have hself := x.ofParts_eq_self
  rw [hzero, hexponent] at hself
  exact hself

/-- A decimal number as a quotient of natural numbers. -/
theorem decimal_eq_div (c : ℕ) (e : ℤ) :
    (c * 10 ^ e : ℚ) = ((c * 10 ^ e.toNat : ℕ) : ℚ) / ((10 ^ (-e).toNat : ℕ) : ℚ) := by
  exact_mod_cast mul_zpow_eq_div c 10 e

/-- Equal decimal numbers are read as the same number, however long their coefficients are. -/
theorem ofDecimal_congr (h : (c * 10 ^ e : ℚ) = c' * 10 ^ e') (negative : Bool) :
    ofDecimal negative c e = ofDecimal negative c' e' := by
  have hzero := eq_zero_iff_of_decimal_eq h
  by_cases hc : c = 0
  · simp only [ofDecimal, hc, hzero.1 hc, true_or, ↓reduceIte]
  have hc' : c' ≠ 0 := mt hzero.2 hc
  have htop := add_digitCount_eq_of_decimal_eq h hc
  have hratio : ofRatio negative (c * 10 ^ e.toNat) (10 ^ (-e).toNat) =
      ofRatio negative (c' * 10 ^ e'.toNat) (10 ^ (-e').toNat) := by
    have hpow : ∀ k : ℕ, 10 ^ k ≠ 0 := fun k => (Nat.pow_pos (by decide)).ne'
    rw [decimal_eq_div, decimal_eq_div] at h
    rw [ofRatio, ofRatio, ofRatio?, ofRatio?,
      BinaryFormat.nearest?_congr (by decide) (hpow _) (hpow _) h]
  simp only [ofDecimal, hc, hc', htop, hratio]

/-- A number is read from any decimal number that has its magnitude. -/
theorem ofDecimal_eq_self (hx : x.isFinite) (hzero : x.significand ≠ 0)
    (h : (c * 10 ^ e : ℚ) = x.magnitude) : ofDecimal x.negative c e = x := by
  have hpos : (0 : ℚ) < x.magnitude := mul_pos
    (by exact_mod_cast Nat.pos_of_ne_zero hzero) (zpow_pos (by norm_num) _)
  have hc : c ≠ 0 := by
    rintro rfl
    rw [Nat.cast_zero, zero_mul] at h
    exact hpos.ne h
  -- the exponents that are decided without rounding are those of other numbers
  have htop : -400 ≤ e + digitCount c ∧ e + digitCount c ≤ 400 := by
    have hlog := log_mul_zpow hc e
    obtain ⟨hlow, hhigh⟩ := magnitude_bounds hx hzero
    have hge := (Int.zpow_le_iff_le_log (by decide) hpos).1 hlow
    have hlt := (Int.lt_zpow_iff_log_lt (by decide) hpos).1 hhigh
    rw [← h] at hge hlt
    omega
  have hden : 10 ^ (-e).toNat ≠ 0 := (Nat.pow_pos (by decide)).ne'
  have hratio := ofRatio?_eq_self hx hzero hden ((decimal_eq_div c e).symm.trans h)
  rw [ofDecimal, if_neg (by omega), if_neg (by omega), ofRatio, hratio, Option.getD_some]

end

end UnitText.Double
