import UnitText.Proofs.Encoding.Boundaries

/-!
# Bytes are ordered as characters are

Texts in UTF-8 are compared byte by byte with the same result as character by character. The first
byte of a character tells how many there are, and more bytes are for greater numbers; among
characters of equal length, the bytes are digits of the number, the highest first.

## Main statements

- `Utf8.compare_bytesOf_of_lt` — the bytes of a greater character come later, whatever follows
- `Utf8.compare_bytes`, `Width.compare_units` — the order of texts is that of their units
-/

namespace UnitText

/-! ## The lexicographic order -/

theorem compare_cons_of_lt {u v : Nat} (h : u < v) (us vs : List Nat) :
    compare (u :: us) (v :: vs) = .lt := by
  rw [List.compare_cons_cons, Nat.compare_eq_lt.2 h, Ordering.lt_then]

theorem compare_cons_of_gt {u v : Nat} (h : v < u) (us vs : List Nat) :
    compare (u :: us) (v :: vs) = .gt := by
  rw [List.compare_cons_cons, Nat.compare_eq_gt.2 h, Ordering.gt_then]

theorem compare_cons_self (u : Nat) (us vs : List Nat) :
    compare (u :: us) (u :: vs) = compare us vs := by
  rw [List.compare_cons_cons, Nat.compare_eq_eq.2 rfl, Ordering.eq_then]

theorem compare_append_left (us vs ws : List Nat) :
    compare (us ++ vs) (us ++ ws) = compare vs ws := by
  induction us with
  | nil => rfl
  | cons u us ih => rw [List.cons_append, List.cons_append, compare_cons_self, ih]

/-! ## Bytes -/

namespace Utf8

variable {v v' : Nat}

/-- Of numbers that agree above their last digits, the continuations are ordered as the numbers. -/
theorem compare_tailBytes_of_lt {n : Nat} (hlt : v < v') (hdiv : v / 0x40 ^ n = v' / 0x40 ^ n)
    (us vs : List Nat) : compare (tailBytes n v ++ us) (tailBytes n v' ++ vs) = .lt := by
  induction n with
  | zero =>
    rw [Nat.pow_zero, Nat.div_one, Nat.div_one] at hdiv
    omega
  | succ n ih =>
    rw [Nat.pow_succ, ← Nat.div_div_eq_div_mul, ← Nat.div_div_eq_div_mul] at hdiv
    have hle : v / 0x40 ^ n ≤ v' / 0x40 ^ n := Nat.div_le_div_right hlt.le
    rw [tailBytes, tailBytes, List.cons_append, List.cons_append]
    -- a difference in this digit decides; otherwise it is one digit more that they agree in
    rcases hle.lt_or_eq with hdigit | hdigit
    · exact compare_cons_of_lt (by omega) _ _
    · rw [hdigit, compare_cons_self]
      exact ih hdigit

theorem tailLength_le (h : v ≤ v') : tailLength v ≤ tailLength v' := by
  simp only [tailLength]
  split_ifs <;> omega

/-- A longer character has a greater first byte. -/
theorem leadByte_lt_of_tailLength_lt (hv : v < 0x110000) (h : tailLength v < tailLength v') :
    leadByte v < leadByte v' := by
  have hupper : leadByte v < leadMark (tailLength v + 1) := by
    simp only [leadByte, tailLength] at h ⊢
    split_ifs at h ⊢ <;> simp only [leadMark] <;> omega
  have hmark : leadMark (tailLength v + 1) ≤ leadMark (tailLength v') := by
    simp only [tailLength] at h ⊢
    split_ifs at h ⊢ <;> simp only [leadMark] <;> omega
  exact (hupper.trans_le hmark).trans_le (Nat.le_add_right _ _)

/-- The bytes of a greater character come later, whatever follows. -/
theorem compare_bytesOf_of_lt {c d : CodePoint} (hc : ¬c.IsSurrogate) (hd : ¬d.IsSurrogate)
    (hlt : c.val < d.val) (us vs : List Nat) :
    compare (bytesOf c ++ us) (bytesOf d ++ vs) = .lt := by
  rw [bytesOf_eq hc, bytesOf_eq hd, List.cons_append, List.cons_append]
  rcases (tailLength_le hlt.le).lt_or_eq with hlength | hlength
  · exact compare_cons_of_lt (leadByte_lt_of_tailLength_lt c.val_lt hlength) _ _
  · have hle : c.val / 0x40 ^ tailLength d.val ≤ d.val / 0x40 ^ tailLength d.val :=
      Nat.div_le_div_right hlt.le
    simp only [leadByte, hlength]
    rcases hle.lt_or_eq with hlead | hlead
    · exact compare_cons_of_lt (Nat.add_lt_add_left hlead _) _ _
    · rw [hlead, compare_cons_self]
      exact compare_tailBytes_of_lt hlt hlead us vs

/-- Texts are ordered as their bytes are. -/
theorem compare_bytes {cs ds : Chars} (hcs : ∀ c ∈ cs, ¬c.IsSurrogate)
    (hds : ∀ d ∈ ds, ¬d.IsSurrogate) :
    compare (bytes cs) (bytes ds) = compare (cs.map CodePoint.val) (ds.map CodePoint.val) := by
  induction cs generalizing ds with
  | nil =>
    cases ds with
    | nil => rfl
    | cons d ds =>
      rw [bytes_cons, bytesOf_eq (hds d List.mem_cons_self)]
      rfl
  | cons c cs ih =>
    rw [List.forall_mem_cons] at hcs
    cases ds with
    | nil =>
      rw [bytes_cons, bytesOf_eq hcs.1]
      rfl
    | cons d ds =>
      rw [List.forall_mem_cons] at hds
      rw [bytes_cons, bytes_cons, List.map_cons, List.map_cons]
      rcases Nat.lt_trichotomy c.val d.val with hlt | heq | hgt
      · rw [compare_bytesOf_of_lt hcs.1 hds.1 hlt, compare_cons_of_lt hlt]
      · rw [CodePoint.ext heq, compare_append_left, compare_cons_self, ih hcs.2 hds.2]
      · rw [compare_cons_of_gt hgt, Std.OrientedOrd.eq_swap,
          compare_bytesOf_of_lt hds.1 hcs.1 hgt, Ordering.swap_lt]

end Utf8

/-- Units are ordered as characters are, except in UTF-16: there, the first half of a pair is less
than some units that are characters by themselves. -/
theorem Width.compare_units {w : Width} (hw : w ≠ .wide16) {cs ds : Chars}
    (hcs : ∀ c ∈ cs, ¬c.IsSurrogate) (hds : ∀ d ∈ ds, ¬d.IsSurrogate) :
    compare (w.units cs) (w.units ds) = compare (cs.map CodePoint.val) (ds.map CodePoint.val) := by
  cases w with
  | narrow => exact Utf8.compare_bytes hcs hds
  | wide16 => exact absurd rfl hw
  | wide32 => rw [units_wide32, units_wide32]

end UnitText
