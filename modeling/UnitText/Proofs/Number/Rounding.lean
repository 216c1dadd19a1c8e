import UnitText.Number.Figures
import UnitText.Proofs.Number.Digits
import Mathlib.Data.Int.Log
import Mathlib.Data.Nat.Digits.Defs
import Mathlib.Data.Rat.Floor
import Mathlib.Algebra.Group.Nat.Even
import Mathlib.Tactic.FieldSimp
import Mathlib.Tactic.Linarith
import Mathlib.Tactic.NormNum
import Mathlib.Tactic.Positivity

/-!
# Rounding to the nearest

A rational number is rounded to the nearest natural number, or to the even one of two. A number
that is rounded to a limited number of digits is rounded in units of the last place that is kept,
which depends on the number, but has a least value. No number that has room in these digits is
nearer than the rounded one.

## Main definitions

- `IsRounded` — a natural number nearest to a rational one
- `lastPlace` — the exponent of the last place that is kept
- `RoundsTo` — a number rounded in units of its last place
- `RoundsAt` — a number rounded in units of a decimal place

## Main statements

- `isRounded_roundHalfEven` — quotients are rounded to the nearest
- `RoundsTo.abs_sub_le` — no number with so few digits is nearer
- `RoundsTo.zpow_le_iff` — which numbers are rounded to a power of the base, or beyond it
- `exists_carried` — a carry does not change the number
- `log_mul_zpow` — the place of the first digit
- `scaleRounded_eq_of_decimal_eq` — equal decimal numbers are rounded alike
-/

namespace UnitText

/-- `n` is the natural number nearest to `x`, and the even one if two are equally near. -/
structure IsRounded (x : ℚ) (n : ℕ) : Prop where
  near : |x - n| ≤ 1 / 2
  even : |x - n| = 1 / 2 → Even n

namespace IsRounded

variable {x : ℚ} {m n : ℕ}

theorem of_abs_lt (h : |x - n| < 1 / 2) : IsRounded x n := ⟨h.le, fun htie => absurd htie h.ne⟩

theorem of_even (h : |x - n| = 1 / 2) (heven : Even n) : IsRounded x n := ⟨h.le, fun _ => heven⟩

theorem natCast (n : ℕ) : IsRounded n n := of_abs_lt (by norm_num)

/-- The bounds of what is rounded, which are only reached by even numbers. -/
theorem bounds (h : IsRounded x n) : (n : ℚ) - 1 / 2 ≤ x ∧ x ≤ n + 1 / 2 := by
  have hnear := abs_le.1 h.near
  constructor <;> linarith

theorem unique (hm : IsRounded x m) (hn : IsRounded x n) : m = n := by
  -- the numbers are side by side at most, and then both of them are even
  have hbelow : ∀ {m n : ℕ}, IsRounded x m → IsRounded x n → ¬m < n := by
    intro m n hm hn hlt
    have hstep : (m : ℚ) + 1 ≤ n := by exact_mod_cast hlt
    have hupper := hm.bounds.2
    have hlower := hn.bounds.1
    have hx : x = m + 1 / 2 := by linarith
    have hnext : n = m + 1 := by
      have hcast : (n : ℚ) = m + 1 := by linarith
      exact_mod_cast hcast
    have hmeven : Even m := hm.even (by rw [hx]; norm_num)
    have hneven : Even n := hn.even (by rw [hx, hnext]; push_cast; norm_num)
    rw [hnext, Nat.even_add_one] at hneven
    exact hneven hmeven
  exact le_antisymm (not_lt.1 (hbelow hn hm)) (not_lt.1 (hbelow hm hn))

/-- No natural number is nearer. -/
theorem abs_sub_le (h : IsRounded x n) (k : ℕ) : |x - n| ≤ |x - k| := by
  rcases lt_trichotomy k n with hlt | rfl | hgt
  · have hstep : (k : ℚ) + 1 ≤ n := by exact_mod_cast hlt
    have hlower := h.bounds.1
    have hhalf : 1 / 2 ≤ x - k := by linarith
    exact h.near.trans (hhalf.trans (le_abs_self _))
  · exact le_rfl
  · have hstep : (n : ℚ) + 1 ≤ k := by exact_mod_cast hgt
    have hupper := h.bounds.2
    have hhalf : 1 / 2 ≤ -(x - k) := by linarith
    exact h.near.trans (hhalf.trans (neg_le_abs _))

/-- A natural number is not passed. -/
theorem le_of_natCast_le (h : IsRounded x n) {k : ℕ} (hk : (k : ℚ) ≤ x) : k ≤ n := by
  by_contra hlt
  have hstep : (n : ℚ) + 1 ≤ k := by exact_mod_cast Nat.lt_of_not_le hlt
  have hupper := h.bounds.2
  linarith

theorem le_of_le_natCast (h : IsRounded x n) {k : ℕ} (hk : x ≤ k) : n ≤ k := by
  by_contra hlt
  have hstep : (k : ℚ) + 1 ≤ n := by exact_mod_cast Nat.lt_of_not_le hlt
  have hlower := h.bounds.1
  linarith

/-- An even number is reached from half a unit below it. -/
theorem even_le_iff (h : IsRounded x n) {k : ℕ} (hk : Even k) :
    k ≤ n ↔ (k : ℚ) - 1 / 2 ≤ x := by
  constructor
  · intro hle
    have hcast : (k : ℚ) ≤ n := by exact_mod_cast hle
    have hlower := h.bounds.1
    linarith
  · intro hx
    by_contra hlt
    have hstep : (n : ℚ) + 1 ≤ k := by exact_mod_cast Nat.lt_of_not_le hlt
    have hupper := h.bounds.2
    have hnext : k = n + 1 := by
      have hcast : (k : ℚ) = n + 1 := by linarith
      exact_mod_cast hcast
    have hhalf : |x - n| = 1 / 2 := by
      have hdistance : x - n = 1 / 2 := by linarith
      rw [hdistance]
      norm_num
    rw [hnext, Nat.even_add_one] at hk
    exact hk (h.even hhalf)

end IsRounded

/-! ## Quotients -/

/-- A quotient is its integer part and a part of the denominator. -/
theorem div_eq_add_mod (num : ℕ) {den : ℕ} (hden : 0 < den) :
    (num / den : ℚ) = (num / den : ℕ) + ((num % den : ℕ) : ℚ) / den := by
  have hpos : (den : ℚ) ≠ 0 := by exact_mod_cast hden.ne'
  have hdivision : (num : ℚ) = den * (num / den : ℕ) + (num % den : ℕ) := by
    exact_mod_cast (Nat.div_add_mod num den).symm
  nth_rewrite 1 [hdivision]
  field_simp

theorem isRounded_roundHalfEven (num : ℕ) {den : ℕ} (hden : 0 < den) :
    IsRounded (num / den : ℚ) (roundHalfEven num den) := by
  have hpos : (0 : ℚ) < den := by exact_mod_cast hden
  have hlt : ((num % den : ℕ) : ℚ) < den := by exact_mod_cast Nat.mod_lt num hden
  have hnonneg : (0 : ℚ) ≤ (num % den : ℕ) := Nat.cast_nonneg _
  rw [div_eq_add_mod num hden, roundHalfEven]
  generalize num / den = q
  generalize num % den = r at hlt hnonneg
  have hhalf : ((r : ℚ) / den < 1 / 2 ↔ 2 * r < den) ∧ (1 / 2 < (r : ℚ) / den ↔ den < 2 * r) := by
    rw [div_lt_div_iff₀ hpos two_pos, div_lt_div_iff₀ two_pos hpos, one_mul,
      mul_comm (r : ℚ)]
    exact ⟨by exact_mod_cast Iff.rfl, by exact_mod_cast Iff.rfl⟩
  have hzero : 0 ≤ (r : ℚ) / den := div_nonneg hnonneg hpos.le
  have hone : (r : ℚ) / den < 1 := (div_lt_one hpos).2 hlt
  generalize (r : ℚ) / den = part at hhalf hzero hone
  have hbelow : (q : ℚ) + part - q = part := by ring
  have habove : (q : ℚ) + part - (q + 1 : ℕ) = part - 1 := by
    push_cast
    ring
  split
  · next hlow =>
    refine .of_abs_lt ?_
    rw [hbelow, abs_of_nonneg hzero]
    exact hhalf.1.2 hlow
  split
  · next hhigh =>
    refine .of_abs_lt ?_
    have hpart := hhalf.2.2 hhigh
    rw [habove, abs_of_neg (by linarith)]
    linarith
  · next hlow hhigh =>
    -- neither is nearer, so the even one is taken
    have htie : part = 1 / 2 :=
      le_antisymm (not_lt.1 (mt hhalf.2.1 hhigh)) (not_lt.1 (mt hhalf.1.1 hlow))
    split
    · next heven =>
      refine .of_even ?_ (Nat.even_iff.2 heven)
      rw [hbelow, htie]
      norm_num
    · next hodd =>
      refine .of_even ?_ (Nat.even_add_one.2 (mt Nat.even_iff.1 hodd))
      rw [habove, htie]
      norm_num

theorem roundHalfEven_eq_or (num den : ℕ) :
    roundHalfEven num den = num / den ∨ roundHalfEven num den = num / den + 1 := by
  unfold roundHalfEven
  simp only
  repeat' split
  all_goals simp

theorem isRounded_scaleRounded (c : ℕ) (k : ℤ) :
    IsRounded (c * 10 ^ k : ℚ) (scaleRounded c k) := by
  unfold scaleRounded
  split
  · next hk =>
    obtain ⟨j, rfl⟩ := Int.eq_ofNat_of_zero_le hk
    have hcast : (c * 10 ^ ((j : ℕ) : ℤ) : ℚ) = ((c * 10 ^ j : ℕ) : ℚ) := by
      rw [zpow_natCast]
      push_cast
      rfl
    rw [hcast, Int.toNat_natCast]
    exact .natCast _
  · next hk =>
    obtain ⟨j, hj⟩ := Int.eq_ofNat_of_zero_le (show 0 ≤ -k by omega)
    obtain rfl : k = -(j : ℤ) := by omega
    have hcast : (c * 10 ^ (-(j : ℤ)) : ℚ) = (c : ℚ) / ((10 ^ j : ℕ) : ℚ) := by
      rw [zpow_neg, zpow_natCast]
      push_cast
      rfl
    rw [hcast, neg_neg, Int.toNat_natCast]
    exact isRounded_roundHalfEven c (Nat.pow_pos (by decide))

/-! ## Rounding to a limited number of digits -/

section

variable {b p : ℕ} {m : ℤ} {x y : ℚ}

/-- The exponent of the last place that is kept of `x`, of `p` places in a base. It is never less
than `m`. -/
def lastPlace (b p : ℕ) (m : ℤ) (x : ℚ) : ℤ := max (Int.log b x + 1 - p) m

/-- The number `x` is rounded to `y` in units of its last place. -/
def RoundsTo (b p : ℕ) (m : ℤ) (x y : ℚ) : Prop :=
  ∃ r : ℕ, IsRounded (x / (b : ℚ) ^ lastPlace b p m x) r ∧ y = r * (b : ℚ) ^ lastPlace b p m x

theorem le_lastPlace (b p : ℕ) (m : ℤ) (x : ℚ) : m ≤ lastPlace b p m x := le_max_right _ _

theorem zpow_base_pos (hb : 1 < b) (q : ℤ) : (0 : ℚ) < (b : ℚ) ^ q :=
  zpow_pos (by exact_mod_cast Nat.zero_lt_of_lt hb) q

theorem zpow_base_mono (hb : 1 < b) {k q : ℤ} (h : k ≤ q) : (b : ℚ) ^ k ≤ (b : ℚ) ^ q :=
  zpow_le_zpow_right₀ (by exact_mod_cast hb.le) h

/-- A power of the base in units of a lower place. -/
theorem zpow_add_natCast (hb : 1 < b) (q : ℤ) (k : ℕ) :
    (b : ℚ) ^ (q + k) = ((b ^ k : ℕ) : ℚ) * (b : ℚ) ^ q := by
  have hbase : (b : ℚ) ≠ 0 := by exact_mod_cast (Nat.zero_lt_of_lt hb).ne'
  rw [add_comm, zpow_add₀ hbase, zpow_natCast]
  push_cast
  rfl

/-- A power of the base is a quotient of natural numbers. -/
theorem zpow_eq_div (b : ℕ) (q : ℤ) :
    (b : ℚ) ^ q = ((b ^ q.toNat : ℕ) : ℚ) / ((b ^ (-q).toNat : ℕ) : ℚ) := by
  obtain ⟨k, rfl | rfl⟩ := Int.eq_nat_or_neg q
  · have hzero : (-(k : ℤ)).toNat = 0 := by omega
    rw [hzero, Int.toNat_natCast, zpow_natCast, pow_zero, Nat.cast_one, div_one, Nat.cast_pow]
  · have hzero : (-(k : ℤ)).toNat = 0 := by omega
    rw [hzero, neg_neg, Int.toNat_natCast, zpow_neg, zpow_natCast, pow_zero, Nat.cast_one, one_div,
      Nat.cast_pow]

/-- So is a multiple of one. -/
theorem mul_zpow_eq_div (c b : ℕ) (q : ℤ) :
    (c * (b : ℚ) ^ q) = ((c * b ^ q.toNat : ℕ) : ℚ) / ((b ^ (-q).toNat : ℕ) : ℚ) := by
  rw [zpow_eq_div, ← mul_div_assoc, Nat.cast_mul]

/-- And so is a quotient in units of a place. -/
theorem div_div_zpow (b num den : ℕ) (q : ℤ) : (num / den : ℚ) / (b : ℚ) ^ q =
    ((num * b ^ (-q).toNat : ℕ) : ℚ) / ((den * b ^ q.toNat : ℕ) : ℚ) := by
  rw [zpow_eq_div, div_div_div_eq, ← Nat.cast_mul, ← Nat.cast_mul]

/-- A number is less than one unit of the place before all that are kept. -/
theorem lt_zpow_lastPlace (hb : 1 < b) : x < (b : ℚ) ^ (lastPlace b p m x + p) := by
  have hle : Int.log b x + 1 ≤ lastPlace b p m x + p := by
    have hmax := le_max_left (Int.log b x + 1 - p) m
    rw [lastPlace]
    omega
  exact (Int.lt_zpow_succ_log_self hb x).trans_le (zpow_base_mono hb hle)

/-- All places are used, unless the last place is the least one. -/
theorem zpow_lastPlace_le (hb : 1 < b) (hx : 0 < x) (h : m < lastPlace b p m x) :
    (b : ℚ) ^ (lastPlace b p m x + p - 1) ≤ x := by
  have hlog : lastPlace b p m x + p - 1 = Int.log b x := by
    rw [lastPlace] at h ⊢
    omega
  rw [hlog]
  exact Int.zpow_log_le_self hb hx

namespace RoundsTo

/-- A number of whole units is rounded to itself. -/
theorem of_exact (hb : 1 < b) {n : ℕ} (h : x = n * (b : ℚ) ^ lastPlace b p m x) :
    RoundsTo b p m x x := by
  refine ⟨n, ?_, h⟩
  have hdiv : x / (b : ℚ) ^ lastPlace b p m x = n := by
    rw [div_eq_iff (zpow_base_pos hb _).ne']
    exact h
  rw [hdiv]
  exact .natCast n

/-- Less than half a unit of the least place is rounded to zero. -/
theorem zero (hb : 1 < b) (hx : 0 ≤ x) (hlt : x < 1 / 2 * (b : ℚ) ^ m) : RoundsTo b p m x 0 := by
  refine ⟨0, .of_abs_lt ?_, by rw [Nat.cast_zero, zero_mul]⟩
  have hpos := zpow_base_pos hb (lastPlace b p m x)
  rw [Nat.cast_zero, sub_zero, abs_of_nonneg (div_nonneg hx hpos.le), div_lt_iff₀ hpos]
  refine hlt.trans_le ?_
  exact mul_le_mul_of_nonneg_left (zpow_base_mono hb (le_lastPlace b p m x)) (by norm_num)

theorem unique {z : ℚ} (hy : RoundsTo b p m x y) (hz : RoundsTo b p m x z) : y = z := by
  obtain ⟨r, hr, rfl⟩ := hy
  obtain ⟨s, hs, rfl⟩ := hz
  rw [hr.unique hs]

/-- No number of whole units is nearer. -/
theorem abs_sub_le_units (hb : 1 < b) (h : RoundsTo b p m x y) (k : ℕ) :
    |x - y| ≤ |x - k * (b : ℚ) ^ lastPlace b p m x| := by
  obtain ⟨r, hr, rfl⟩ := h
  have hpos := zpow_base_pos hb (lastPlace b p m x)
  generalize (b : ℚ) ^ lastPlace b p m x = unit at hr hpos
  have hunit : ∀ k : ℕ, |x - k * unit| = |x / unit - k| * unit := by
    intro k
    nth_rewrite 3 [← abs_of_pos hpos]
    rw [← abs_mul, sub_mul, div_mul_cancel₀ x hpos.ne']
  rw [hunit, hunit]
  exact mul_le_mul_of_nonneg_right (hr.abs_sub_le k) hpos.le

/-- A number is not rounded beyond the place before all that are kept. -/
theorem le_zpow (hb : 1 < b) (h : RoundsTo b p m x y) :
    y ≤ (b : ℚ) ^ (lastPlace b p m x + p) := by
  obtain ⟨r, hr, rfl⟩ := h
  have hpos := zpow_base_pos hb (lastPlace b p m x)
  have hlt : x < (b : ℚ) ^ (lastPlace b p m x + p) := lt_zpow_lastPlace hb
  rw [zpow_add_natCast hb] at hlt ⊢
  have hr' : r ≤ b ^ p := hr.le_of_le_natCast ((div_le_iff₀ hpos).2 hlt.le)
  exact mul_le_mul_of_nonneg_right (by exact_mod_cast hr') hpos.le

/-- Nor is it rounded below the least number with all places. -/
theorem zpow_le (hb : 1 < b) (hp : 0 < p) (hx : 0 < x) (h : RoundsTo b p m x y)
    (hm : m < lastPlace b p m x) : (b : ℚ) ^ (lastPlace b p m x + p - 1) ≤ y := by
  obtain ⟨r, hr, rfl⟩ := h
  have hpos := zpow_base_pos hb (lastPlace b p m x)
  have hle := zpow_lastPlace_le hb hx hm
  have hplace : lastPlace b p m x + p - 1 = lastPlace b p m x + (p - 1 : ℕ) := by omega
  rw [hplace, zpow_add_natCast hb] at hle ⊢
  have hr' : b ^ (p - 1) ≤ r := hr.le_of_natCast_le ((le_div_iff₀ hpos).2 hle)
  exact mul_le_mul_of_nonneg_right (by exact_mod_cast hr') hpos.le

/-- **No number with so few digits is nearer than the rounded one.** -/
theorem abs_sub_le (hb : 1 < b) (hp : 0 < p) (hx : 0 < x) (h : RoundsTo b p m x y) {c : ℕ} {e : ℤ}
    (hc : c < b ^ p) (he : m ≤ e) : |x - y| ≤ |x - c * (b : ℚ) ^ e| := by
  by_cases hle : lastPlace b p m x ≤ e
  · obtain ⟨j, hj⟩ := Int.eq_ofNat_of_zero_le (show 0 ≤ e - lastPlace b p m x by omega)
    have hmultiple : c * (b : ℚ) ^ e = ((c * b ^ j : ℕ) : ℚ) * (b : ℚ) ^ lastPlace b p m x := by
      have hsum : e = lastPlace b p m x + j := by omega
      rw [hsum, zpow_add_natCast hb]
      push_cast
      ring
    rw [hmultiple]
    exact h.abs_sub_le_units hb _
  · -- the other number is too small: the least one with all places lies between it and `x`
    have hplace : lastPlace b p m x + p - 1 = lastPlace b p m x + (p - 1 : ℕ) := by omega
    have hleast : (b : ℚ) ^ (lastPlace b p m x + p - 1) ≤ x := zpow_lastPlace_le hb hx (by omega)
    have hother : c * (b : ℚ) ^ e ≤ (b : ℚ) ^ (lastPlace b p m x + p - 1) := calc
      c * (b : ℚ) ^ e ≤ ((b ^ p : ℕ) : ℚ) * (b : ℚ) ^ e :=
        mul_le_mul_of_nonneg_right (by exact_mod_cast hc.le) (zpow_base_pos hb e).le
      _ = (b : ℚ) ^ (e + p) := (zpow_add_natCast hb e p).symm
      _ ≤ (b : ℚ) ^ (lastPlace b p m x + p - 1) := zpow_base_mono hb (by omega)
    have hnear := h.abs_sub_le_units hb (b ^ (p - 1))
    rw [← zpow_add_natCast hb, ← hplace, abs_of_nonneg (sub_nonneg.2 hleast)] at hnear
    have hfar : x - c * (b : ℚ) ^ e ≤ |x - c * (b : ℚ) ^ e| := le_abs_self _
    linarith

/-- A number that has room in so few digits is not changed. -/
theorem eq_self (hb : 1 < b) (hp : 0 < p) (hx : 0 < x) (h : RoundsTo b p m x y) {c : ℕ} {e : ℤ}
    (hc : c < b ^ p) (he : m ≤ e) (hself : x = c * (b : ℚ) ^ e) : y = x := by
  have hnear := h.abs_sub_le hb hp hx hc he
  rw [← hself, sub_self, abs_zero, abs_nonpos_iff, sub_eq_zero] at hnear
  exact hnear.symm

/-- With a lower last place a number stays below a power of the base, by more than half a unit. -/
theorem lt_of_lastPlace_lt (hb : 1 < b) (h : RoundsTo b p m x y) {k : ℤ}
    (hlt : lastPlace b p m x < k) :
    x < ((b ^ p : ℕ) - 1 / 2 : ℚ) * (b : ℚ) ^ k ∧ y < (b : ℚ) ^ (k + p) := by
  have hplaces : lastPlace b p m x + p ≤ k - 1 + p := by omega
  have hx : x < (b : ℚ) ^ (k - 1 + p) :=
    (lt_zpow_lastPlace hb).trans_le (zpow_base_mono hb hplaces)
  have hy : y ≤ (b : ℚ) ^ (k - 1 + p) := (h.le_zpow hb).trans (zpow_base_mono hb hplaces)
  have hunit : (b : ℚ) ^ k = b * (b : ℚ) ^ (k - 1) := by
    have hsum := zpow_add_natCast hb (k - 1) 1
    rwa [Nat.cast_one, sub_add_cancel, pow_one] at hsum
  have hpos := zpow_base_pos hb (k - 1)
  have htwo : (2 : ℚ) ≤ b := by exact_mod_cast hb
  have hone : (1 : ℚ) ≤ (b ^ p : ℕ) := by exact_mod_cast Nat.pow_pos (Nat.zero_lt_of_lt hb)
  rw [zpow_add_natCast hb] at hx hy ⊢
  rw [hunit]
  generalize (b : ℚ) ^ (k - 1) = unit at hx hy hpos
  generalize ((b ^ p : ℕ) : ℚ) = power at hx hy hone
  have hfactor : power ≤ (power - 1 / 2) * b := by nlinarith
  constructor
  · calc x < power * unit := hx
      _ ≤ (power - 1 / 2) * b * unit := mul_le_mul_of_nonneg_right hfactor hpos.le
      _ = (power - 1 / 2) * (b * unit) := mul_assoc _ _ _
  · calc y ≤ power * unit := hy
      _ < power * (b * unit) := by nlinarith

/-- With a higher last place a number is not below a power of the base. -/
theorem le_of_lt_lastPlace (hb : 1 < b) (hp : 0 < p) (hx : 0 < x) (h : RoundsTo b p m x y) {k : ℤ}
    (hk : m ≤ k) (hlt : k < lastPlace b p m x) : (b : ℚ) ^ (k + p) ≤ x ∧ (b : ℚ) ^ (k + p) ≤ y := by
  have hplaces : k + p ≤ lastPlace b p m x + p - 1 := by omega
  have hmin : m < lastPlace b p m x := by omega
  exact ⟨(zpow_base_mono hb hplaces).trans (zpow_lastPlace_le hb hx hmin),
    (zpow_base_mono hb hplaces).trans (h.zpow_le hb hp hx hmin)⟩

/-- A power of the base that has all places is reached from half a unit below it. -/
theorem zpow_le_iff (hb : 1 < b) (heven : Even b) (hp : 0 < p) (hx : 0 < x)
    (h : RoundsTo b p m x y) {k : ℤ} (hk : m ≤ k) :
    (b : ℚ) ^ (k + p) ≤ y ↔ ((b ^ p : ℕ) - 1 / 2 : ℚ) * (b : ℚ) ^ k ≤ x := by
  rcases lt_trichotomy (lastPlace b p m x) k with hlt | heq | hgt
  · obtain ⟨hx', hy⟩ := h.lt_of_lastPlace_lt hb hlt
    exact ⟨fun hle => absurd hy (not_lt.2 hle), fun hle => absurd hx' (not_lt.2 hle)⟩
  · -- the power of the base is an even number of units
    obtain ⟨r, hr, rfl⟩ := h
    rw [heq] at hr ⊢
    have hpos := zpow_base_pos hb k
    have hevenpow : Even (b ^ p) := (Nat.even_pow' hp.ne').2 heven
    rw [zpow_add_natCast hb, mul_le_mul_iff_left₀ hpos, Nat.cast_le, hr.even_le_iff hevenpow,
      le_div_iff₀ hpos]
  · obtain ⟨hx', hy⟩ := h.le_of_lt_lastPlace hb hp hx hk hgt
    refine ⟨fun _ => le_trans ?_ hx', fun _ => hy⟩
    rw [zpow_add_natCast hb]
    exact mul_le_mul_of_nonneg_right (by linarith) (zpow_base_pos hb k).le

end RoundsTo

end

/-! ## Rounding to a decimal place -/

section

variable {q : ℤ} {x y z : ℚ}

/-- The number `x` is rounded to `y` in units of a power of ten. -/
def RoundsAt (q : ℤ) (x y : ℚ) : Prop := ∃ r : ℕ, IsRounded (x / 10 ^ q) r ∧ y = r * 10 ^ q

namespace RoundsAt

theorem unique (hy : RoundsAt q x y) (hz : RoundsAt q x z) : y = z := by
  obtain ⟨r, hr, rfl⟩ := hy
  obtain ⟨s, hs, rfl⟩ := hz
  rw [hr.unique hs]

/-- A number of whole units is not changed. -/
theorem eq_self (h : RoundsAt q x y) {k : ℕ} (hx : x = k * 10 ^ q) : y = x := by
  obtain ⟨r, hr, rfl⟩ := h
  rw [hx, mul_div_cancel_right₀ _ (zpow_pos (by norm_num) q).ne'] at hr
  rw [hx, hr.unique (.natCast k)]

theorem zero (q : ℤ) : RoundsAt q 0 0 := by
  refine ⟨0, ?_, by rw [Nat.cast_zero, zero_mul]⟩
  rw [zero_div]
  exact_mod_cast IsRounded.natCast 0

/-- A number that is rounded up to a power of ten is rounded to it at the next place too. -/
theorem carried {n : ℕ} (h : RoundsAt q x (10 ^ (n + 1) * 10 ^ q))
    (hlt : x < 10 ^ (n + 1) * 10 ^ q) : RoundsAt (q + 1) x (10 ^ (n + 1) * 10 ^ q) := by
  have hpos : (0 : ℚ) < 10 ^ q := zpow_pos (by norm_num) q
  have hnext : (10 : ℚ) ^ (q + 1) = 10 ^ q * 10 := zpow_add_one₀ (by norm_num) q
  obtain ⟨r, hr, hvalue⟩ := h
  have hr' : (r : ℚ) = 10 ^ n * 10 := by
    rw [← pow_succ]
    exact (mul_right_cancel₀ hpos.ne' hvalue).symm
  have hlower := hr.bounds.1
  have hupper : x / 10 ^ q < 10 ^ n * 10 := by rwa [div_lt_iff₀ hpos, ← pow_succ]
  refine ⟨10 ^ n, .of_abs_lt ?_, by rw [hnext]; push_cast; ring⟩
  rw [hnext, ← div_div, Nat.cast_pow, Nat.cast_ofNat, abs_lt]
  rw [hr'] at hlower
  generalize x / 10 ^ q = units at hlower hupper
  generalize (10 : ℚ) ^ n = power at hlower hupper
  constructor <;> linarith

end RoundsAt

theorem roundsAt_scaleRounded (c : ℕ) (e q : ℤ) :
    RoundsAt q (c * 10 ^ e) (scaleRounded c (e - q) * 10 ^ q) := by
  refine ⟨_, ?_, rfl⟩
  have hscaled := isRounded_scaleRounded c (e - q)
  rwa [zpow_sub₀ (by norm_num), ← mul_div_assoc] at hscaled

end

/-! ## Carried digits -/

/-- A carry into one more place leaves only zeros behind it, of which one is dropped. -/
theorem exists_carried {b p : ℕ} (hb : 1 < b) (hp : 0 < p) {c : ℕ} (hc : c ≤ b ^ p) (q : ℤ) :
    ∃ (c' : ℕ) (q' : ℤ), (if c = b ^ p then (b ^ (p - 1), q + 1) else (c, q)) = (c', q') ∧
      c' < b ^ p ∧ (c' = c ∧ q' = q ∨ c' = b ^ (p - 1) ∧ q' = q + 1) ∧
      (c' * (b : ℚ) ^ q' : ℚ) = c * (b : ℚ) ^ q := by
  have hbase : (b : ℚ) ≠ 0 := by exact_mod_cast (Nat.zero_lt_of_lt hb).ne'
  split
  · next hcarry =>
    have hpow : b ^ p = b ^ (p - 1) * b := (Nat.pow_pred_mul hp).symm
    refine ⟨_, _, rfl, Nat.pow_lt_pow_right hb (by omega), .inr ⟨rfl, rfl⟩, ?_⟩
    rw [hcarry, hpow, zpow_add_one₀ hbase]
    push_cast
    ring
  · next hkept => exact ⟨c, q, rfl, lt_of_le_of_ne hc hkept, .inl ⟨rfl, rfl⟩, rfl⟩

/-! ## The place of the first digit -/

theorem log_eq {b : ℕ} {k : ℤ} {x : ℚ} (hb : 1 < b) (hle : (b : ℚ) ^ k ≤ x)
    (hlt : x < (b : ℚ) ^ (k + 1)) : Int.log b x = k := by
  have hpos : 0 < x := lt_of_lt_of_le (zpow_pos (by exact_mod_cast Nat.zero_lt_of_lt hb) k) hle
  have hlower := (Int.zpow_le_iff_le_log hb hpos).1 hle
  have hupper := (Int.lt_zpow_iff_log_lt hb hpos).1 hlt
  omega

/-- A number has more digits than the power of ten that it reaches. -/
theorem lt_digitCount {n p : ℕ} (h : 10 ^ p ≤ n) : p < digitCount n := by
  obtain ⟨ds, hds, hdigits⟩ := exists_radixDigits (by decide : 1 < 10) n
  have hlength : digitCount n = ds.length := by
    have hrepr := congrArg List.length ((decimalDigits_eq n).trans hdigits)
    rwa [decimalDigits, String.length_toList, List.length_map] at hrepr
  have hlt : n < 10 ^ ds.length := hds.value ▸ digitsValue_lt hds.lt
  rw [hlength]
  exact (Nat.pow_lt_pow_iff_right (by decide)).1 (h.trans_lt hlt)

theorem digitCount_pos (n : ℕ) : 0 < digitCount n := by
  by_cases hn : n = 0
  · subst hn
    decide
  · exact lt_digitCount (Nat.pos_of_ne_zero hn)

theorem lt_pow_digitCount (n : ℕ) : n < 10 ^ digitCount n := by
  by_contra h
  exact absurd (lt_digitCount (Nat.le_of_not_lt h)) (lt_irrefl _)

theorem lt_pow_of_digitCount_le {n k : ℕ} (h : digitCount n ≤ k) : n < 10 ^ k :=
  (lt_pow_digitCount n).trans_le (Nat.pow_le_pow_right (by decide) h)

theorem digitCount_le {n k : ℕ} (hk : 0 < k) (h : n < 10 ^ k) : digitCount n ≤ k :=
  Nat.repr_length n k hk h

theorem pow_le_of_digitCount {n : ℕ} (hn : n ≠ 0) : 10 ^ (digitCount n - 1) ≤ n := by
  by_contra h
  have hlt := Nat.lt_of_not_le h
  by_cases hone : digitCount n = 1
  · rw [hone] at hlt
    exact hn (Nat.lt_one_iff.1 hlt)
  · have hpos := digitCount_pos n
    have hle := digitCount_le (by omega) hlt
    omega

/-- The first digit of a number stands before all its other digits. -/
theorem log_mul_zpow {c : ℕ} (hc : c ≠ 0) (e : ℤ) :
    Int.log 10 (c * 10 ^ e : ℚ) = e + digitCount c - 1 := by
  have hten : (0 : ℚ) < 10 := by norm_num
  have hpos := digitCount_pos c
  obtain ⟨k, hk⟩ := Nat.exists_eq_add_of_lt hpos
  rw [Nat.zero_add] at hk
  have hle : 10 ^ k ≤ c := by
    have hpow := pow_le_of_digitCount hc
    rwa [hk, Nat.add_sub_cancel] at hpow
  have hlt : c < 10 ^ (k + 1) := hk ▸ lt_pow_digitCount c
  have hplace : e + digitCount c - 1 = (k : ℤ) + e := by omega
  rw [hplace]
  refine log_eq (by decide) ?_ ?_
  · rw [Nat.cast_ofNat, zpow_add₀ hten.ne', zpow_natCast]
    exact mul_le_mul_of_nonneg_right (by exact_mod_cast hle) (zpow_pos hten e).le
  · have hsum : (k : ℤ) + e + 1 = ((k + 1 : ℕ) : ℤ) + e := by omega
    rw [hsum, Nat.cast_ofNat, zpow_add₀ hten.ne', zpow_natCast]
    exact mul_lt_mul_of_pos_right (by exact_mod_cast hlt) (zpow_pos hten e)

/-! ## Equal decimal numbers -/

theorem decimal_eq_zero_iff {c : ℕ} {e : ℤ} : (c * 10 ^ e : ℚ) = 0 ↔ c = 0 := by
  have hunit : (10 : ℚ) ^ e ≠ 0 := (zpow_pos (by norm_num) e).ne'
  rw [mul_eq_zero_iff_right hunit, Nat.cast_eq_zero]

section

variable {c c' : ℕ} {e e' : ℤ} (h : (c * 10 ^ e : ℚ) = c' * 10 ^ e')
include h

theorem eq_zero_iff_of_decimal_eq : c = 0 ↔ c' = 0 := by
  rw [← decimal_eq_zero_iff, h, decimal_eq_zero_iff]

/-- Equal decimal numbers begin at the same place. -/
theorem add_digitCount_eq_of_decimal_eq (hc : c ≠ 0) : e + digitCount c = e' + digitCount c' := by
  have hc' : c' ≠ 0 := mt (eq_zero_iff_of_decimal_eq h).2 hc
  have hlog := congrArg (Int.log 10) h
  rw [log_mul_zpow hc, log_mul_zpow hc'] at hlog
  omega

/-- Equal decimal numbers are rounded alike. -/
theorem scaleRounded_eq_of_decimal_eq (k : ℤ) :
    scaleRounded c (e + k) = scaleRounded c' (e' + k) := by
  have hscaled : (c * 10 ^ (e + k) : ℚ) = c' * 10 ^ (e' + k) := by
    rw [zpow_add₀ (by norm_num), zpow_add₀ (by norm_num), ← mul_assoc, ← mul_assoc, h]
  exact (isRounded_scaleRounded c (e + k)).unique (hscaled ▸ isRounded_scaleRounded c' (e' + k))

end

end UnitText
