import UnitText.Number.BinaryFormat
import UnitText.Proofs.Number.Rounding

/-!
# Nearest numbers of binary formats

A quotient is rounded to a binary format as any number is rounded to a limited number of digits. The
result depends on the number only, not on the quotient, and a number of the format is its own. Each
of them has one significand and one exponent.

## Main definitions

- `BinaryFormat.Canonical` — the significands and exponents of a format

## Main statements

- `BinaryFormat.floorLog_eq` — the place of the first bit
- `BinaryFormat.exists_nearest?` — quotients are rounded to the format, or are out of range
- `BinaryFormat.nearest?_congr` — equal quotients have the same nearest number
- `BinaryFormat.nearest?_eq_none_iff` — the quotients that are out of range
-/

namespace UnitText.BinaryFormat

variable {f : BinaryFormat} {num den : ℕ}

/-! ## The place of the first bit -/

/-- A power of two on the side on which it is a natural number. -/
theorem mul_two_zpow_eq (c : ℕ) (q : ℤ) :
    (c * 2 ^ q : ℚ) = ((c * 2 ^ q.toNat : ℕ) : ℚ) / ((2 ^ (-q).toNat : ℕ) : ℚ) := by
  exact_mod_cast mul_zpow_eq_div c 2 q

theorem lt_mul_two_zpow_iff (a c : ℕ) (q : ℤ) :
    a * 2 ^ (-q).toNat < c * 2 ^ q.toNat ↔ (a : ℚ) < c * 2 ^ q := by
  have hpos : (0 : ℚ) < ((2 ^ (-q).toNat : ℕ) : ℚ) := by exact_mod_cast Nat.two_pow_pos _
  rw [mul_two_zpow_eq, lt_div_iff₀ hpos, ← Nat.cast_mul, Nat.cast_lt]

theorem le_mul_two_zpow_iff (a c : ℕ) (q : ℤ) :
    a * 2 ^ (-q).toNat ≤ c * 2 ^ q.toNat ↔ (a : ℚ) ≤ c * 2 ^ q := by
  have hpos : (0 : ℚ) < ((2 ^ (-q).toNat : ℕ) : ℚ) := by exact_mod_cast Nat.two_pow_pos _
  rw [mul_two_zpow_eq, le_div_iff₀ hpos, ← Nat.cast_mul, Nat.cast_le]

theorem floorLog_eq (hnum : num ≠ 0) (hden : den ≠ 0) :
    floorLog num den = Int.log 2 (num / den : ℚ) := by
  have hpos : (0 : ℚ) < den := by exact_mod_cast Nat.pos_of_ne_zero hden
  have hnumLow : (2 : ℚ) ^ (num.log2 : ℤ) ≤ num := by exact_mod_cast Nat.log2_self_le hnum
  have hnumHigh : (num : ℚ) < 2 ^ (num.log2 + 1 : ℤ) := by
    exact_mod_cast Nat.lt_log2_self (n := num)
  have hdenLow : (2 : ℚ) ^ (den.log2 : ℤ) ≤ den := by exact_mod_cast Nat.log2_self_le hden
  have hdenHigh : (den : ℚ) < 2 ^ (den.log2 + 1 : ℤ) := by
    exact_mod_cast Nat.lt_log2_self (n := den)
  -- the two numbers have their first bits where the logarithms say, up to one place
  have hlow : (2 : ℚ) ^ (num.log2 - den.log2 - 1 : ℤ) ≤ num / den := by
    rw [le_div_iff₀ hpos]
    calc (2 : ℚ) ^ (num.log2 - den.log2 - 1 : ℤ) * den
        ≤ 2 ^ (num.log2 - den.log2 - 1 : ℤ) * 2 ^ (den.log2 + 1 : ℤ) :=
          mul_le_mul_of_nonneg_left hdenHigh.le (zpow_pos (by norm_num) _).le
      _ = 2 ^ (num.log2 : ℤ) := by rw [← zpow_add₀ (by norm_num)]; congr 1; omega
      _ ≤ num := hnumLow
  have hhigh : (num / den : ℚ) < 2 ^ (num.log2 - den.log2 + 1 : ℤ) := by
    rw [div_lt_iff₀ hpos]
    calc (num : ℚ) < 2 ^ (num.log2 + 1 : ℤ) := hnumHigh
      _ = 2 ^ (num.log2 - den.log2 + 1 : ℤ) * 2 ^ (den.log2 : ℤ) := by
          rw [← zpow_add₀ (by norm_num)]; congr 1; omega
      _ ≤ 2 ^ (num.log2 - den.log2 + 1 : ℤ) * den :=
          mul_le_mul_of_nonneg_left hdenLow (zpow_pos (by norm_num) _).le
  unfold floorLog
  simp only [lt_mul_two_zpow_iff]
  split
  · next hlt =>
    refine (log_eq (by decide) (by exact_mod_cast hlow) ?_).symm
    rw [sub_add_cancel, div_lt_iff₀ hpos, mul_comm]
    exact_mod_cast hlt
  · next hge =>
    refine (log_eq (by decide) ?_ (by exact_mod_cast hhigh)).symm
    rw [le_div_iff₀ hpos, mul_comm]
    exact_mod_cast not_lt.1 hge

/-! ## Significands and exponents -/

/-- The significand and the exponent of a number of the format: all bits are used, unless the
exponent is the least one. -/
structure Canonical (f : BinaryFormat) (m : ℕ) (q : ℤ) : Prop where
  lt : m < 2 ^ f.precision
  le : f.minExponent ≤ q
  full : f.minExponent < q → 2 ^ (f.precision - 1) ≤ m

namespace Canonical

variable {m m' : ℕ} {q q' : ℤ}

/-- A number of the format is less than one that has a greater exponent. -/
theorem lt_of_exponent_lt (hp : 0 < f.precision) (h : f.Canonical m q) (h' : f.Canonical m' q')
    (hlt : q < q') : (m * 2 ^ q : ℚ) < m' * 2 ^ q' := by
  have hfull := h'.full (h.le.trans_lt hlt)
  have hbits : m + 1 ≤ 2 * m' := by
    have hpow : 2 ^ f.precision = 2 * 2 ^ (f.precision - 1) := by
      rw [← pow_succ', Nat.sub_add_cancel hp]
    have hm := h.lt
    omega
  have hpos : (0 : ℚ) < 2 ^ q := zpow_pos (by norm_num) q
  have hpos' : (0 : ℚ) < 2 ^ (q' - 1) := zpow_pos (by norm_num) _
  calc (m * 2 ^ q : ℚ) < (2 * m' : ℕ) * 2 ^ q := by
        exact mul_lt_mul_of_pos_right (by exact_mod_cast hbits) hpos
    _ ≤ (2 * m' : ℕ) * 2 ^ (q' - 1) := by
        refine mul_le_mul_of_nonneg_left ?_ (Nat.cast_nonneg _)
        exact zpow_le_zpow_right₀ (by norm_num) (by omega)
    _ = m' * 2 ^ q' := by
        have hq' : (2 : ℚ) ^ q' = 2 ^ (q' - 1) * 2 := by
          rw [← zpow_add_one₀ (by norm_num), sub_add_cancel]
        rw [hq']
        push_cast
        ring

/-- Each number of the format has one significand and one exponent. -/
theorem unique (hp : 0 < f.precision) (h : f.Canonical m q) (h' : f.Canonical m' q')
    (heq : (m * 2 ^ q : ℚ) = m' * 2 ^ q') : m = m' ∧ q = q' := by
  rcases lt_trichotomy q q' with hlt | rfl | hgt
  · exact absurd heq (h.lt_of_exponent_lt hp h' hlt).ne
  · have hpos : (0 : ℚ) < 2 ^ q := zpow_pos (by norm_num) q
    exact ⟨by exact_mod_cast mul_right_cancel₀ hpos.ne' heq, rfl⟩
  · exact absurd heq (h'.lt_of_exponent_lt hp h hgt).ne'

end Canonical

/-! ## The nearest number -/

theorem isRounded_scaled (hden : den ≠ 0) (q : ℤ) :
    IsRounded ((num / den : ℚ) / 2 ^ q) (scaled num den q) := by
  have hunit := div_div_zpow 2 num den q
  rw [Nat.cast_ofNat] at hunit
  rw [hunit]
  exact isRounded_roundHalfEven _
    (Nat.mul_pos (Nat.pos_of_ne_zero hden) (Nat.pow_pos (by decide)))

/-- What a quotient is rounded to before it is looked whether it is out of range. -/
theorem exists_rounded (hp : 0 < f.precision) {x y : ℚ} {m : ℕ} (hx : 0 < x)
    (hy : RoundsTo 2 f.precision f.minExponent x y)
    (hm : y = m * 2 ^ lastPlace 2 f.precision f.minExponent x) :
    ∃ (m' : ℕ) (q' : ℤ), (if m = 2 ^ f.precision then
        (2 ^ (f.precision - 1), lastPlace 2 f.precision f.minExponent x + 1)
      else (m, lastPlace 2 f.precision f.minExponent x)) = (m', q') ∧
      f.Canonical m' q' ∧ y = m' * 2 ^ q' := by
  have hmin := le_lastPlace 2 f.precision f.minExponent x
  have hpos : (0 : ℚ) < 2 ^ lastPlace 2 f.precision f.minExponent x := zpow_pos (by norm_num) _
  have hle : m ≤ 2 ^ f.precision := by
    have hmost := hy.le_zpow (by decide)
    rw [zpow_add_natCast (by decide), hm, Nat.cast_ofNat, mul_le_mul_iff_left₀ hpos] at hmost
    exact_mod_cast hmost
  have hfull : f.minExponent < lastPlace 2 f.precision f.minExponent x →
      2 ^ (f.precision - 1) ≤ m := by
    intro hlt
    have hleast := hy.zpow_le (by decide) hp hx hlt
    have hplace : lastPlace 2 f.precision f.minExponent x + f.precision - 1 =
        lastPlace 2 f.precision f.minExponent x + (f.precision - 1 : ℕ) := by omega
    rw [hplace, zpow_add_natCast (by decide), hm, Nat.cast_ofNat,
      mul_le_mul_iff_left₀ hpos] at hleast
    exact_mod_cast hleast
  obtain ⟨m', q', hcarried, hlt, hcases, hvalue⟩ := exists_carried (by decide) hp hle _
  rw [Nat.cast_ofNat] at hvalue
  refine ⟨m', q', hcarried, ⟨hlt, by omega, fun hq' => ?_⟩, hm.trans hvalue.symm⟩
  rcases hcases with ⟨rfl, rfl⟩ | ⟨rfl, -⟩
  · exact hfull hq'
  · exact le_rfl

/-- **A quotient is rounded to the nearest number of the format**, unless that is out of range. -/
theorem exists_nearest? (hp : 0 < f.precision) (hnum : num ≠ 0) (hden : den ≠ 0) :
    ∃ (m : ℕ) (q : ℤ), f.Canonical m q ∧
      RoundsTo 2 f.precision f.minExponent (num / den : ℚ) (m * 2 ^ q) ∧
      f.nearest? num den = if (2 : ℚ) ^ f.limit ≤ m * 2 ^ q then none else some (m, q) := by
  have hx : (0 : ℚ) < num / den :=
    div_pos (by exact_mod_cast Nat.pos_of_ne_zero hnum) (by exact_mod_cast Nat.pos_of_ne_zero hden)
  have hround : RoundsTo 2 f.precision f.minExponent (num / den : ℚ) _ :=
    ⟨_, by exact_mod_cast isRounded_scaled hden _, rfl⟩
  rw [Nat.cast_ofNat] at hround
  obtain ⟨m, q, hpair, hcanonical, hvalue⟩ := exists_rounded hp hx hround rfl
  refine ⟨m, q, hcanonical, hvalue ▸ hround, ?_⟩
  have hplace : max (Int.log 2 (num / den : ℚ) + 1 - f.precision) f.minExponent =
      lastPlace 2 f.precision f.minExponent (num / den : ℚ) := rfl
  simp only [nearest?, if_neg hnum, floorLog_eq hnum hden, hplace, hpair, le_mul_two_zpow_iff,
    Nat.cast_pow, Nat.cast_ofNat]

/-- The significand and the exponent of a nearest number are those of the format, and the number is
not out of range. -/
theorem canonical_of_nearest? (hp : 0 < f.precision) (hden : den ≠ 0) {m : ℕ} {q : ℤ}
    (h : f.nearest? num den = some (m, q)) : f.Canonical m q ∧ (m * 2 ^ q : ℚ) < 2 ^ f.limit := by
  by_cases hnum : num = 0
  · rw [nearest?, if_pos hnum] at h
    obtain ⟨rfl, rfl⟩ := Prod.mk.inj (Option.some.inj h)
    refine ⟨⟨Nat.two_pow_pos _, le_rfl, fun hlt => absurd hlt (lt_irrefl _)⟩, ?_⟩
    rw [Nat.cast_zero, zero_mul]
    positivity
  · obtain ⟨m', q', hcanonical, -, hnearest⟩ := exists_nearest? hp hnum hden
    rw [hnearest] at h
    split at h
    · cases h
    · next hlimit =>
      obtain ⟨rfl, rfl⟩ := Prod.mk.inj (Option.some.inj h)
      exact ⟨hcanonical, not_le.1 hlimit⟩

/-- Equal quotients have the same nearest number. -/
theorem nearest?_congr (hp : 0 < f.precision) {num' den' : ℕ} (hden : den ≠ 0) (hden' : den' ≠ 0)
    (h : (num / den : ℚ) = num' / den') : f.nearest? num den = f.nearest? num' den' := by
  have hzero : num = 0 ↔ num' = 0 := by
    have hiff := congrArg (· = 0) h
    simp only [div_eq_zero_iff, Nat.cast_eq_zero, hden, hden', or_false] at hiff
    exact Eq.to_iff hiff
  by_cases hnum : num = 0
  · rw [nearest?, nearest?, if_pos hnum, if_pos (hzero.1 hnum)]
  · obtain ⟨m, q, hcanonical, hround, hnearest⟩ := exists_nearest? hp hnum hden
    obtain ⟨m', q', hcanonical', hround', hnearest'⟩ :=
      exists_nearest? hp (fun h => hnum (hzero.2 h)) hden'
    rw [← h] at hround'
    obtain ⟨rfl, rfl⟩ := hcanonical.unique hp hcanonical' (hround.unique hround')
    rw [hnearest, hnearest']

/-- A number of the format is its own nearest number. -/
theorem nearest?_eq_some (hp : 0 < f.precision) {m : ℕ} {q : ℤ} (hcanonical : f.Canonical m q)
    (hlimit : (m * 2 ^ q : ℚ) < 2 ^ f.limit) (hm : m ≠ 0) (hden : den ≠ 0)
    (h : (num / den : ℚ) = m * 2 ^ q) : f.nearest? num den = some (m, q) := by
  have hpos : (0 : ℚ) < m * 2 ^ q :=
    mul_pos (by exact_mod_cast Nat.pos_of_ne_zero hm) (zpow_pos (by norm_num) q)
  have hnum : num ≠ 0 := by
    rintro rfl
    rw [Nat.cast_zero, zero_div] at h
    exact hpos.ne h
  obtain ⟨m', q', hcanonical', hround, hnearest⟩ := exists_nearest? hp hnum hden
  rw [← h] at hpos
  have hself := hround.eq_self (by decide) hp hpos hcanonical.lt hcanonical.le
    (by exact_mod_cast h)
  obtain ⟨rfl, rfl⟩ := hcanonical.unique hp hcanonical' (h.symm.trans hself.symm)
  rw [hnearest, if_neg (not_le.2 hlimit)]

/-- A quotient is out of range from half a unit below the power of two that limits the format. -/
theorem nearest?_eq_none_iff (hp : 0 < f.precision) (hlimit : f.minExponent + f.precision ≤ f.limit)
    (hden : den ≠ 0) : f.nearest? num den = none ↔
      (2 ^ f.precision - 1 / 2) * (2 : ℚ) ^ (f.limit - f.precision : ℤ) ≤ num / den := by
  by_cases hnum : num = 0
  · have hone : (1 : ℚ) ≤ 2 ^ f.precision := one_le_pow₀ (by norm_num)
    have hpos : (0 : ℚ) < (2 ^ f.precision - 1 / 2) * 2 ^ (f.limit - f.precision : ℤ) :=
      mul_pos (by linarith) (zpow_pos (by norm_num) _)
    rw [nearest?, if_pos hnum, hnum, Nat.cast_zero, zero_div]
    exact ⟨nofun, fun h => absurd h (not_le.2 hpos)⟩
  · obtain ⟨m, q, -, hround, hnearest⟩ := exists_nearest? hp hnum hden
    have hx : (0 : ℚ) < num / den :=
      div_pos (by exact_mod_cast Nat.pos_of_ne_zero hnum)
        (by exact_mod_cast Nat.pos_of_ne_zero hden)
    have hreached := hround.zpow_le_iff (by decide) (by decide) hp hx
      (k := f.limit - f.precision) (by omega)
    rw [sub_add_cancel, Nat.cast_ofNat, zpow_natCast] at hreached
    push_cast at hreached
    rw [hnearest, ← hreached, ite_eq_left_iff]
    exact ⟨fun h => by_contra fun hlt => Option.some_ne_none _ (h hlt), fun h hlt => absurd h hlt⟩

end UnitText.BinaryFormat
