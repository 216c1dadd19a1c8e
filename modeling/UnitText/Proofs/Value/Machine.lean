import UnitText.Proofs.Number.Double
import Mathlib.Algebra.Order.Group.Unbundled.Int
import Mathlib.Data.Int.ModEq

/-!
# What is stored of a number

The bits that are kept of an integer are an integer of their own: the only one that fits and differs
from it by a multiple of the power of two. So a machine integer is held by its type as it is.

## Main definitions

- `Integer.IsStored` — an integer that fits, and agrees with another one in its lowest bits

## Main statements

- `Integer.isStored_wrap`, `Integer.IsStored.unique` — there is just one
- `MachineInteger.hold_value`, `MachineInteger.isStored_store` — what machine integers hold
- `FloatType.negative_hold` — a floating-point number keeps its sign when it is stored
-/

namespace UnitText

namespace Integer

/-- The bits that are kept of `n` are those of `w`, which fits in them. -/
structure IsStored (bits : Nat) (signed : Bool) (n w : Int) : Prop where
  modEq : w ≡ n [ZMOD 2 ^ bits]
  fits : if signed then -2 ^ (bits - 1) ≤ w ∧ w < 2 ^ (bits - 1) else 0 ≤ w ∧ w < 2 ^ bits

variable {bits : Nat} {signed : Bool} {n w w' : Int}

theorem two_pow_eq (hbits : 0 < bits) : (2 : Int) ^ bits = 2 * 2 ^ (bits - 1) := by
  obtain ⟨k, rfl⟩ : ∃ k, bits = k + 1 := ⟨bits - 1, by omega⟩
  rw [Nat.add_sub_cancel, Int.pow_succ, Int.mul_comm]

theorem isStored_wrap (hbits : 0 < bits) : IsStored bits signed n (wrap bits signed n) := by
  have hpos : 0 < 2 ^ bits := Nat.two_pow_pos bits
  have hcast : ((2 ^ bits : Nat) : Int) = 2 ^ bits := Int.natCast_pow 2 bits
  cases signed with
  | false =>
    have hwrap : wrap bits false n = n % 2 ^ bits := by rw [← hcast]; rfl
    rw [hwrap]
    exact ⟨Int.mod_modEq _ _, Int.emod_nonneg _ (by omega), Int.emod_lt_of_pos _ (by omega)⟩
  | true =>
    have hhalf := two_pow_eq hbits
    have hlower : -((2 ^ bits : Nat) / 2 : Int) ≤ n.bmod (2 ^ bits) := Int.le_bmod hpos
    have hupper : n.bmod (2 ^ bits) < ((2 ^ bits : Nat) + 1 : Int) / 2 := Int.bmod_lt hpos
    refine ⟨?_, ?_⟩
    · rw [← hcast]
      exact Int.bmod_emod
    · rw [hcast] at hlower hupper
      show -2 ^ (bits - 1) ≤ n.bmod (2 ^ bits) ∧ n.bmod (2 ^ bits) < 2 ^ (bits - 1)
      omega

theorem IsStored.unique (hbits : 0 < bits) (h : IsStored bits signed n w)
    (h' : IsStored bits signed n w') : w' = w := by
  have hhalf := two_pow_eq hbits
  have hdvd : 2 ^ bits ∣ w' - w := (h.modEq.trans h'.modEq.symm).dvd
  have hlt : |w' - w| < 2 ^ bits := by
    have hfits := h.fits
    have hfits' := h'.fits
    cases signed with
    | false =>
      simp only [Bool.false_eq_true, ↓reduceIte] at hfits hfits'
      exact abs_lt.2 (by omega)
    | true =>
      simp only [↓reduceIte] at hfits hfits'
      exact abs_lt.2 (by omega)
  have hzero := Int.eq_zero_of_abs_lt_dvd hdvd hlt
  omega

theorem IsStored.nonneg (h : IsStored bits false n w) : 0 ≤ w := by
  have hfits := h.fits
  simp only [Bool.false_eq_true, ↓reduceIte] at hfits
  exact hfits.1

/-- What fits in some bits fits in more of them. -/
theorem IsStored.natAbs_le (hbits : bits ≤ 64) (h : IsStored bits signed n w) :
    w.natAbs ≤ 2 ^ 64 := by
  have hpow : ∀ k ≤ 64, (2 : Int) ^ k ≤ 2 ^ 64 := fun k hk =>
    mod_cast Nat.pow_le_pow_right (n := 2) (by decide) hk
  have hbound := hpow bits hbits
  have hhalf := hpow (bits - 1) (by omega)
  have hfits := h.fits
  cases signed with
  | false =>
    simp only [Bool.false_eq_true, ↓reduceIte] at hfits
    omega
  | true =>
    simp only [↓reduceIte] at hfits
    omega

@[simp] theorem wrap_wrap (bits : Nat) (signed : Bool) (n : Int) :
    wrap bits signed (wrap bits signed n) = wrap bits signed n := by
  cases signed <;> simp [wrap]

end Integer

/-- Integers of at most 64 bits can be written. -/
theorem Integer.lt_limit_of_le {n : Nat} (h : n ≤ 2 ^ 64) : n < 10 ^ digitLimit := by
  have hlimit : 20 ≤ digitLimit := by
    unfold digitLimit
    omega
  calc
    n ≤ 2 ^ 64 := h
    _ < 10 ^ 20 := by decide
    _ ≤ 10 ^ digitLimit := Nat.pow_le_pow_right (by decide) hlimit

theorem Value.integerText_of_natAbs_le {n : Int} (h : n.natAbs ≤ 2 ^ 64) :
    integerText n = .ok (Integer.text n) := by
  have htext : Integer.text? n = some (Integer.text n) := if_pos (Integer.lt_limit_of_le h)
  unfold integerText
  split
  · next s hs => rw [Option.some.inj (hs.symm.trans htext)]
  · next hs => cases hs.symm.trans htext

theorem IntegerType.bits_pos (t : IntegerType) : 0 < t.bits := by
  have hbits := t.bits_mem
  simp only [machineBits, List.mem_cons, List.not_mem_nil, or_false] at hbits
  omega

theorem IntegerType.bits_le (t : IntegerType) : t.bits ≤ 64 := by
  have hbits := t.bits_mem
  simp only [machineBits, List.mem_cons, List.not_mem_nil, or_false] at hbits
  omega

namespace MachineInteger

/-- A machine integer is held by its type as it is. -/
@[simp] theorem hold_value (x : MachineInteger) : x.type.hold x.value = x.value := by
  obtain ⟨n, hn⟩ := x.isStored
  rw [← hn, IntegerType.hold, IntegerType.hold, Integer.wrap_wrap]

theorem isStored_store (t : IntegerType) (n : Int) :
    Integer.IsStored t.bits t.signed n (t.store n).value :=
  Integer.isStored_wrap t.bits_pos

theorem isStored_value (x : MachineInteger) :
    Integer.IsStored x.type.bits x.type.signed x.value x.value := by
  have hstored : Integer.IsStored x.type.bits x.type.signed x.value (x.type.hold x.value) :=
    Integer.isStored_wrap x.type.bits_pos
  rwa [hold_value] at hstored

theorem natAbs_le (x : MachineInteger) : x.value.natAbs ≤ 2 ^ 64 :=
  x.isStored_value.natAbs_le x.type.bits_le

end MachineInteger

/-- A number keeps its sign when it is stored. -/
theorem FloatType.negative_hold (t : FloatType) (x : Double) :
    (t.hold x).negative = x.negative := by
  unfold hold
  split
  · exact Double.negative_narrowed (by decide) x
  · rw [Double.negative_narrowed (by decide), Double.negative_quieted]
  · rfl
  · exact Double.negative_quieted x

end UnitText
