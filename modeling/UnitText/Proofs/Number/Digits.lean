import UnitText.Number.Digits
import UnitText.Numeral.Digits
import Mathlib.Data.List.Induction

/-!
# Digits and the numbers that they write

A number is written by its digits in a base, of which the first is not zero unless it is the only
one. Zeros put before them write the same number.

## Main definitions

- `DigitsOf` — the digits of a number in a base

## Main statements

- `exists_radixDigits` — what is written are the digits of the number
- `digitsValue_append`, `digitsValue_zeros` — the number that several digits write
- `digitsValue_lt` — how large it can be
- `exists_zeroPadded_radixDigits`, `exists_dropWhile_zero` — zeros before digits and behind them
-/

namespace UnitText

/-- The digits of a number in a base. -/
structure DigitsOf (base n : Nat) (ds : List Nat) : Prop where
  lt : ∀ d ∈ ds, d < base
  value : digitsValue base ds = n
  ne_nil : ds ≠ []
  /-- No zero stands before other digits. -/
  canonical : ds.head? = some 0 → ds = [0]

theorem digitsValue_append (base : Nat) (ds es : List Nat) :
    digitsValue base (ds ++ es) = digitsValue base ds * base ^ es.length + digitsValue base es := by
  induction es using List.reverseRecOn with
  | nil => simp [digitsValue]
  | append_singleton es e ih =>
    have hconcat : ∀ fs, digitsValue base (fs ++ [e]) = digitsValue base fs * base + e := by
      simp [digitsValue]
    rw [← List.append_assoc, hconcat, hconcat, ih, List.length_append, List.length_singleton,
      Nat.pow_succ, Nat.add_mul, Nat.mul_assoc, Nat.add_assoc]

theorem digitsValue_zeros (base k : Nat) (ds : List Nat) :
    digitsValue base (List.replicate k 0 ++ ds) = digitsValue base ds := by
  have hzeros : digitsValue base (List.replicate k 0) = 0 := by
    induction k with
    | zero => rfl
    | succ k ih => simpa [List.replicate_succ, digitsValue] using ih
  rw [digitsValue_append, hzeros]
  simp

theorem digitsValue_lt {base : Nat} {ds : List Nat} (h : ∀ d ∈ ds, d < base) :
    digitsValue base ds < base ^ ds.length := by
  induction ds using List.reverseRecOn with
  | nil => simp [digitsValue]
  | append_singleton ds d ih =>
    obtain ⟨hds, hd⟩ := List.forall_mem_append.1 h
    have hlast : d < base := hd d List.mem_cons_self
    have hfront : digitsValue base ds + 1 ≤ base ^ ds.length := ih hds
    calc digitsValue base (ds ++ [d])
        = digitsValue base ds * base + d := by
          rw [digitsValue_append]
          simp [digitsValue]
      _ < (digitsValue base ds + 1) * base := by
          rw [Nat.add_mul]
          omega
      _ ≤ base ^ ds.length * base := Nat.mul_le_mul_right base hfront
      _ = base ^ (ds ++ [d]).length := by
          rw [List.length_append, List.length_singleton, Nat.pow_succ]

theorem eq_zero_of_digitsValue {base : Nat} {ds : List Nat} (hbase : 0 < base)
    (h : digitsValue base ds = 0) : ∀ d ∈ ds, d = 0 := by
  induction ds using List.reverseRecOn with
  | nil => nofun
  | append_singleton ds d ih =>
    have hconcat : digitsValue base ds * base + d = 0 := by
      simpa [digitsValue] using h
    obtain ⟨hproduct, hd⟩ := Nat.add_eq_zero_iff.1 hconcat
    have hds : digitsValue base ds = 0 := (Nat.mul_eq_zero.1 hproduct).resolve_right (by omega)
    exact List.forall_mem_append.2 ⟨ih hds, List.forall_mem_singleton.2 hd⟩

/-- The digits of a number are those of all but the last place, and the last. -/
theorem DigitsOf.concat {base n d : Nat} {ds : List Nat} (h : DigitsOf base n ds) (hn : 0 < n)
    (hd : d < base) : DigitsOf base (base * n + d) (ds ++ [d]) where
  lt := List.forall_mem_append.2 ⟨h.lt, List.forall_mem_singleton.2 hd⟩
  value := by
    rw [digitsValue_append, h.value]
    simp [digitsValue, Nat.mul_comm]
  ne_nil := by simp
  canonical := by
    intro hhead
    obtain ⟨c, cs, rfl⟩ := List.exists_cons_of_ne_nil h.ne_nil
    -- the first of all digits is only zero if the number before the last place is
    have hzero : n = 0 := by simp [← h.value, h.canonical hhead, digitsValue]
    omega

/-- A number is written with its digits. -/
theorem exists_radixDigits {base : Nat} (hbase : 1 < base) (n : Nat) :
    ∃ ds, DigitsOf base n ds ∧ radixDigits base n = ds.map Nat.digitChar := by
  unfold radixDigits
  induction n using Nat.base_induction base hbase with
  | single d hd =>
    refine ⟨[d], ⟨List.forall_mem_singleton.2 hd, by simp [digitsValue], by simp, by simp⟩, ?_⟩
    rw [Nat.toDigits_of_lt_base hd]
    rfl
  | digit n d hd hn ih =>
    obtain ⟨ds, hds, hdigits⟩ := ih
    refine ⟨ds ++ [d], hds.concat hn hd, ?_⟩
    rw [← Nat.toDigits_append_toDigits hbase hn hd, hdigits, Nat.toDigits_of_lt_base hd,
      List.map_append]
    rfl

/-! ## Zeros -/

/-- Digits are put behind as many zeros as the width asks for. -/
theorem exists_zeroPadded_radixDigits {base : Nat} (hbase : 1 < base) (width n : Nat) :
    ∃ ds : List Nat, zeroPadded width (radixDigits base n) = ds.map Nat.digitChar ∧
      (∀ d ∈ ds, d < base) ∧ digitsValue base ds = n ∧
      ds.length = max width (radixDigits base n).length := by
  obtain ⟨ds, hds, hdigits⟩ := exists_radixDigits hbase n
  refine ⟨List.replicate (width - ds.length) 0 ++ ds, ?_, ?_, ?_, ?_⟩
  · rw [zeroPadded, hdigits, List.leftpad, List.length_map, List.map_append, List.map_replicate]
    rfl
  · refine List.forall_mem_append.2 ⟨fun d hd => ?_, hds.lt⟩
    rw [List.eq_of_mem_replicate hd]
    omega
  · rw [digitsValue_zeros, hds.value]
  · rw [hdigits, List.length_append, List.length_replicate, List.length_map]
    omega

/-- A number that has room in the width is written with so many digits. -/
theorem max_length_radixDigits {base width n : Nat} (hbase : 1 < base) (hwidth : 0 < width)
    (hn : n < base ^ width) : max width (radixDigits base n).length = width := by
  have hle : (radixDigits base n).length ≤ width :=
    (Nat.length_toDigits_le_iff hbase hwidth).2 hn
  omega

/-- The digits that are left without the zeros that end them. -/
theorem exists_dropWhile_zero {ds : List Nat} (hlt : ∀ d ∈ ds, d < 16) :
    ∃ (es : List Nat) (k : Nat), ds = es ++ List.replicate k 0 ∧ es.getLast? ≠ some 0 ∧
      ((ds.map Nat.digitChar).reverse.dropWhile (· == '0')).reverse = es.map Nat.digitChar := by
  induction ds using List.reverseRecOn with
  | nil => exact ⟨[], 0, rfl, nofun, rfl⟩
  | append_singleton ds d ih =>
    obtain ⟨hds, hd⟩ := List.forall_mem_append.1 hlt
    have hzero : ∀ d < 16, d ≠ 0 → (d.digitChar == '0') = false := by decide
    rw [List.map_append, List.reverse_append]
    by_cases h : d = 0
    · obtain ⟨es, k, rfl, hlast, hdrop⟩ := ih hds
      refine ⟨es, k + 1, ?_, hlast, ?_⟩
      · rw [h, List.append_assoc, ← List.replicate_succ']
      · rw [h, ← hdrop]
        rfl
    · refine ⟨ds ++ [d], 0, (List.append_nil _).symm, by simpa using h, ?_⟩
      have hchar := hzero d (hd d List.mem_cons_self) h
      rw [List.map_singleton, List.reverse_singleton, List.singleton_append,
        List.dropWhile_cons_of_neg (by simp [hchar]), List.reverse_cons, List.reverse_reverse,
        List.map_append, List.map_singleton]

end UnitText
