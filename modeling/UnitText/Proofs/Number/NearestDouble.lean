import UnitText.Proofs.Number.Double

/-!
# The floating-point number nearest to a number

A decimal number is read as the floating-point number nearest to it. In range this is a finite
number with no finite number nearer to the decimal one, and of two the one with the even
significand. Out of range it is infinite. It has the sign that was written, also if it is zero.

## Main definitions

- `Double.IsNearest` — the floating-point number nearest to a magnitude with a sign

## Main statements

- `Double.IsNearest.abs_sub_le` — no finite number is nearer
- `Double.IsNearest.unique` — there is one nearest number
- `Double.isNearest_ofDecimal` — decimal numbers are read as the nearest number
-/

namespace UnitText.Double

/-- `x` is the number nearest to the magnitude `v` with a sign. -/
structure IsNearest (negative : Bool) (v : ℚ) (x : Double) : Prop where
  sign : x.negative = negative
  finite : v < overflowLimit → x.isFinite ∧ RoundsTo 2 53 (-1074) v x.magnitude
  infinite : overflowLimit ≤ v → x = infinity negative

/-! ## What is nearest -/

namespace IsNearest

variable {negative : Bool} {v : ℚ} {x y : Double}

/-- No finite number is nearer. -/
theorem abs_sub_le (h : x.IsNearest negative v) (hv : 0 ≤ v) (hlimit : v < overflowLimit)
    (y : Double) : |v - x.magnitude| ≤ |v - y.magnitude| := by
  obtain ⟨-, hround⟩ := h.finite hlimit
  rcases hv.eq_or_lt with rfl | hpos
  · -- zero is a number of whole units
    have hnear := hround.abs_sub_le_units (by decide) 0
    rw [Nat.cast_zero, zero_mul, sub_zero, abs_zero] at hnear
    exact hnear.trans (abs_nonneg _)
  · exact_mod_cast hround.abs_sub_le (by decide) (by decide) hpos y.canonical.lt y.canonical.le

/-- There is one nearest number. -/
theorem unique (hx : x.IsNearest negative v) (hy : y.IsNearest negative v) : x = y := by
  by_cases hlimit : v < overflowLimit
  · obtain ⟨-, hround⟩ := hx.finite hlimit
    obtain ⟨-, hround'⟩ := hy.finite hlimit
    obtain ⟨hsignificand, hexponent⟩ :=
      x.canonical.unique (by decide) y.canonical (hround.unique hround')
    rw [← x.ofParts_eq_self, ← y.ofParts_eq_self, hx.sign, hy.sign, hsignificand, hexponent]
  · have hle := not_lt.1 hlimit
    rw [hx.infinite hle, hy.infinite hle]

end IsNearest

/-! ## Reading -/

/-- The parts of a number are those that it was made of. -/
theorem parts_ofParts (negative : Bool) {m : ℕ} {q : ℤ} (h : BinaryFormat.double.Canonical m q)
    (hlimit : (m * 2 ^ q : ℚ) < 2 ^ BinaryFormat.double.limit) :
    (ofParts negative m q).negative = negative ∧ (ofParts negative m q).isFinite ∧
      (ofParts negative m q).magnitude = m * 2 ^ q := by
  have hbits := magnitudeBits_lt h hlimit
  have hq := exponent_le_of_lt_limit h hlimit
  have hm : m < 2 ^ 53 := h.lt
  have hmin : -1074 ≤ q := h.le
  have hfull : -1074 < q → 2 ^ 52 ≤ m := h.full
  have hself : (ofParts negative m q).bits =
      (if negative then 2 ^ 63 else 0) + ((q + 1074).toNat * 2 ^ 52 + m) := by
    refine Nat.mod_eq_of_lt ?_
    split <;> omega
  have hparts : (ofParts negative m q).exponent = q ∧ (ofParts negative m q).significand = m ∧
      (ofParts negative m q).exponentBits < 2047 := by
    unfold exponent significand
    rcases lt_or_ge m (2 ^ 52) with hsmall | hlarge
    · -- without the highest bit of the significand the exponent is the least one
      have hleast : q = -1074 := by omega
      have hexponentBits : (ofParts negative m q).exponentBits = 0 := by
        rw [exponentBits, hself]
        split <;> omega
      have hfractionBits : (ofParts negative m q).fractionBits = m := by
        rw [fractionBits, hself]
        split <;> omega
      rw [hexponentBits, hfractionBits, if_pos rfl, if_pos rfl]
      exact ⟨hleast.symm, rfl, by decide⟩
    · have hexponentBits : (ofParts negative m q).exponentBits = (q + 1074).toNat + 1 := by
        rw [exponentBits, hself]
        split <;> omega
      have hfractionBits : (ofParts negative m q).fractionBits = m - 2 ^ 52 := by
        rw [fractionBits, hself]
        split <;> omega
      rw [hexponentBits, hfractionBits, if_neg (Nat.succ_ne_zero _), if_neg (Nat.succ_ne_zero _)]
      omega
  obtain ⟨hexponent, hsignificand, hlt⟩ := hparts
  exact ⟨negative_signed hbits, decide_eq_true hlt, by rw [magnitude, hsignificand, hexponent]⟩

theorem negative_infinity (negative : Bool) : (infinity negative).negative = negative :=
  negative_signed (by decide)

/-- Less than half of the least number is rounded to zero. -/
theorem isNearest_zero (negative : Bool) {v : ℚ} (hv : 0 ≤ v) (hlt : v < 2 ^ (-1075 : ℤ)) :
    (signed negative 0).IsNearest negative v := by
  have hcanonical : BinaryFormat.double.Canonical 0 (-1074) :=
    ⟨by decide, by decide, fun h => absurd h (lt_irrefl _)⟩
  have hrange : ((0 : ℕ) * 2 ^ (-1074 : ℤ) : ℚ) < 2 ^ BinaryFormat.double.limit := by
    rw [Nat.cast_zero, zero_mul]
    positivity
  obtain ⟨hsign, hfinite, hmagnitude⟩ := parts_ofParts negative hcanonical hrange
  have hsmall : v < overflowLimit := by
    have hone : (2 : ℚ) ^ (-1075 : ℤ) ≤ 1 := zpow_le_one_of_nonpos₀ (by norm_num) (by decide)
    exact (hlt.trans_le hone).trans one_lt_overflowLimit
  have hhalf : (2 : ℚ) ^ (-1075 : ℤ) = 1 / 2 * 2 ^ (-1074 : ℤ) := by
    have htwo : (2 : ℚ) ≠ 0 := two_ne_zero
    rw [one_div, mul_comm]
    exact zpow_sub_one₀ htwo (-1074)
  have hround : RoundsTo 2 53 (-1074) v 0 := .zero (by decide) hv (hhalf ▸ hlt)
  rw [Nat.cast_zero, zero_mul] at hmagnitude
  exact ⟨hsign, fun _ => ⟨hfinite, hmagnitude ▸ hround⟩, fun hle => absurd hsmall (not_lt.2 hle)⟩

theorem isNearest_infinity (negative : Bool) {v : ℚ} (hv : overflowLimit ≤ v) :
    (infinity negative).IsNearest negative v :=
  ⟨negative_infinity negative, fun hlt => absurd hv (not_le.2 hlt), fun _ => rfl⟩

/-- Quotients are read as the nearest number. -/
theorem isNearest_ofRatio (negative : Bool) {num den : ℕ} (hnum : num ≠ 0) (hden : den ≠ 0) :
    (ofRatio negative num den).IsNearest negative (num / den) := by
  obtain ⟨m, q, hcanonical, hround, hnearest⟩ :=
    BinaryFormat.exists_nearest? (f := .double) (by decide) hnum hden
  have hnone : ofRatio? negative num den = none ↔ overflowLimit ≤ num / den :=
    ofRatio?_eq_none_iff hden negative
  rw [ofRatio]
  rw [ofRatio?, hnearest] at hnone ⊢
  split at hnone
  · next hlimit =>
    rw [if_pos hlimit]
    exact isNearest_infinity negative (hnone.1 rfl)
  · next hlimit =>
    obtain ⟨hsign, hfinite, hmagnitude⟩ :=
      parts_ofParts negative hcanonical (not_le.1 hlimit)
    rw [if_neg hlimit]
    refine ⟨hsign, fun _ => ⟨hfinite, hmagnitude ▸ hround⟩, fun hle => ?_⟩
    cases hnone.2 hle

/-- **Decimal numbers are read as the nearest number**, also those whose exponents are decided by
the place of the first digit. -/
theorem isNearest_ofDecimal (negative : Bool) (c : ℕ) (e : ℤ) :
    (ofDecimal negative c e).IsNearest negative (c * 10 ^ e) := by
  have hten : (0 : ℚ) < 10 := by norm_num
  by_cases hc : c = 0
  · subst hc
    rw [ofDecimal_zero, Nat.cast_zero, zero_mul]
    exact isNearest_zero negative le_rfl (by norm_num)
  have hpos : (0 : ℚ) < c * 10 ^ e :=
    mul_pos (by exact_mod_cast Nat.pos_of_ne_zero hc) (zpow_pos hten e)
  have hlog := log_mul_zpow hc e
  by_cases hlow : e + digitCount c < -400
  · rw [ofDecimal, if_pos (.inr hlow)]
    refine isNearest_zero negative hpos.le ?_
    have hlt : (c * 10 ^ e : ℚ) < (10 : ℕ) ^ (-400 : ℤ) :=
      (Int.lt_zpow_iff_log_lt (by decide) hpos).2 (by omega)
    exact hlt.trans_le ten_zpow_le
  by_cases hhigh : 400 < e + digitCount c
  · rw [ofDecimal, if_neg (by omega), if_pos hhigh]
    refine isNearest_infinity negative ?_
    have hle : ((10 : ℕ) : ℚ) ^ (400 : ℤ) ≤ c * 10 ^ e :=
      (Int.zpow_le_iff_le_log (by decide) hpos).2 (by omega)
    exact overflowLimit_le.trans (limit_le_ten_zpow.trans hle)
  · rw [ofDecimal, if_neg (by omega), if_neg hhigh, decimal_eq_div]
    refine isNearest_ofRatio negative ?_ (Nat.pow_pos (by decide)).ne'
    exact Nat.mul_ne_zero hc (Nat.pow_pos (by decide)).ne'

end UnitText.Double
