import UnitText.Number.Shortest
import UnitText.Proofs.Number.Double

/-!
# The fewest digits of floating-point numbers

The digits that a number is written with are read back as that number, whether the search for them
found any or all digits of the number are taken.

## Main statements

- `Double.reads_of_fewestDigits?` — what is found reads back
- `Double.ofDecimal_decimalParts` — so do all digits of a number
- `Double.ofDecimal_shortest` — so do the digits that are written
-/

namespace UnitText.Double

variable {x : Double}

/-- Of the two multiples around a quotient only one that reads back is taken. -/
theorem reads_of_readingBack? {reads : ℕ → ℤ → Bool} {num den c : ℕ} {e e' : ℤ}
    (h : readingBack? reads num den e = some (c, e')) : reads c e' := by
  unfold readingBack? at h
  simp only at h
  split at h
  · next hlow hhigh =>
    obtain ⟨rfl, rfl⟩ := Prod.mk.inj (Option.some.inj h)
    rcases roundHalfEven_eq_or (num * 10 ^ (-e).toNat) (den * 10 ^ e.toNat) with heq | heq
    · rwa [heq]
    · rwa [heq]
  · next hlow _ =>
    obtain ⟨rfl, rfl⟩ := Prod.mk.inj (Option.some.inj h)
    exact hlow
  · next _ hhigh =>
    obtain ⟨rfl, rfl⟩ := Prod.mk.inj (Option.some.inj h)
    exact hhigh
  · cases h

theorem reads_of_fewestDigits? {reads : ℕ → ℤ → Bool} {num den c : ℕ} {e : ℤ}
    (h : fewestDigits? reads num den = some (c, e)) : reads c e := by
  obtain ⟨n, -, hn⟩ := List.exists_of_findSome?_eq_some h
  exact reads_of_readingBack? hn

/-- All digits of a number are its magnitude. -/
theorem decimalParts_eq (x : Double) :
    (x.decimalParts.1 * 10 ^ x.decimalParts.2 : ℚ) = x.magnitude := by
  unfold decimalParts magnitude
  split
  · next he =>
    obtain ⟨k, hk⟩ := Int.eq_ofNat_of_zero_le he
    rw [hk, Int.toNat_natCast, zpow_zero, mul_one, zpow_natCast]
    push_cast
    rfl
  · next he =>
    obtain ⟨k, hk⟩ := Int.eq_ofNat_of_zero_le (show 0 ≤ -x.exponent by omega)
    have hexponent : x.exponent = -(k : ℤ) := by omega
    -- each factor of two in the denominator takes one of five to become ten
    have hten : (10 : ℚ) ^ k = 5 ^ k * 2 ^ k := by
      rw [← mul_pow]
      norm_num
    rw [hexponent, neg_neg, Int.toNat_natCast, zpow_neg, zpow_neg, zpow_natCast, zpow_natCast, hten]
    push_cast
    field_simp

theorem ofDecimal_decimalParts (hx : x.isFinite) (hzero : x.significand ≠ 0) :
    ofDecimal x.negative x.decimalParts.1 x.decimalParts.2 = x :=
  ofDecimal_eq_self hx hzero x.decimalParts_eq

/-- **The digits that a number is written with read back.** -/
theorem ofDecimal_shortest (hx : x.isFinite) (hzero : x.significand ≠ 0) :
    ofDecimal x.negative x.shortest.1 x.shortest.2 = x := by
  unfold shortest
  simp only
  cases hfewest : fewestDigits? (fun c e => ofDecimal x.negative c e == x) x.numerator
      x.denominator with
  | none => exact ofDecimal_decimalParts hx hzero
  | some digits => exact eq_of_beq (reads_of_fewestDigits? hfewest)

/-- A number that is not zero is not written with the digit zero. -/
theorem shortest_ne_zero (hx : x.isFinite) (hzero : x.significand ≠ 0) : x.shortest.1 ≠ 0 := by
  intro hdigits
  have hself := ofDecimal_shortest hx hzero
  rw [hdigits, ofDecimal_zero] at hself
  refine hzero (hself ▸ ?_)
  cases x.negative <;> rfl

end UnitText.Double
