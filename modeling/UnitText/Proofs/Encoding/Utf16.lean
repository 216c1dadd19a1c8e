import UnitText.Encoding.Utf16

/-!
# Reading and writing UTF-16

Every sequence of 16-bit units is read and written back unchanged, surrogates outside pairs
included. Characters that are no surrogates are read back from their units.

## Main statements

- `Utf16.units_decode` — reading, then writing
- `Utf16.decode_units` — writing, then reading
-/

namespace UnitText

namespace Utf16

/-- A unit that begins no pair with the next one is a character by itself. -/
theorem decode_cons_of_not_pair {u : Nat} {us : List Nat}
    (h : ∀ v ∈ us.head?, ¬(IsHigh u ∧ IsLow v)) :
    decode (u :: us) = CodePoint.ofNat u :: decode us := by
  cases us with
  | nil => rfl
  | cons v us => rw [decode, if_neg (h v rfl)]

theorem decode_cons_of_pair {u v : Nat} {us : List Nat} (hu : IsHigh u) (hv : IsLow v) :
    decode (u :: v :: us) = ofPair u v :: decode us := by
  rw [decode, if_pos ⟨hu, hv⟩]

/-! ## The units of one character -/

theorem unitsOf_ofNat {u : Nat} (hu : u < 0x10000) : unitsOf (CodePoint.ofNat u) = [u] := by
  have hval := CodePoint.val_ofNat (n := u) (by omega)
  rw [unitsOf, hval, if_pos hu]

theorem unitsOf_ofPair {u v : Nat} (hu : IsHigh u) (hv : IsLow v) :
    unitsOf (ofPair u v) = [u, v] := by
  obtain ⟨hu, hu'⟩ := hu
  obtain ⟨hv, hv'⟩ := hv
  have hval : (ofPair u v).val = 0x10000 + (u - 0xD800) * 0x400 + (v - 0xDC00) :=
    CodePoint.val_ofNat (by omega)
  have h1 : 0xD800 + ((ofPair u v).val - 0x10000) / 0x400 = u := by omega
  have h2 : 0xDC00 + ((ofPair u v).val - 0x10000) % 0x400 = v := by omega
  rw [unitsOf, if_neg (by omega), h1, h2]

theorem lt_of_mem_unitsOf {c : CodePoint} {u : Nat} (hu : u ∈ unitsOf c) : u < 0x10000 := by
  have hlt := c.val_lt
  simp only [unitsOf] at hu
  split at hu
  · simp only [List.mem_cons, List.not_mem_nil, or_false] at hu
    omega
  · simp only [List.mem_cons, List.not_mem_nil, or_false] at hu
    omega

/-- A character that is no surrogate is read back from its units, whatever follows. -/
theorem decode_unitsOf_append {c : CodePoint} (hc : ¬c.IsSurrogate) (rest : List Nat) :
    decode (unitsOf c ++ rest) = c :: decode rest := by
  have hlt := c.val_lt
  simp only [CodePoint.IsSurrogate] at hc
  rw [unitsOf]
  split
  · next hsmall =>
    have hnot : ∀ v ∈ rest.head?, ¬(IsHigh c.val ∧ IsLow v) := by
      rintro v _ ⟨⟨h1, h2⟩, _⟩
      omega
    rw [List.cons_append, List.nil_append, decode_cons_of_not_pair hnot, CodePoint.ofNat_val]
  · next hlarge =>
    have hu : IsHigh (0xD800 + (c.val - 0x10000) / 0x400) := ⟨by omega, by omega⟩
    have hv : IsLow (0xDC00 + (c.val - 0x10000) % 0x400) := ⟨by omega, by omega⟩
    have hval : 0x10000 + (0xD800 + (c.val - 0x10000) / 0x400 - 0xD800) * 0x400 +
        (0xDC00 + (c.val - 0x10000) % 0x400 - 0xDC00) = c.val := by omega
    rw [List.cons_append, List.cons_append, List.nil_append, decode_cons_of_pair hu hv, ofPair,
      hval, CodePoint.ofNat_val]

/-! ## Sequences -/

/-- Units that are read and written again are the same units, lone surrogates included. -/
theorem units_decode {us : List Nat} (hus : ∀ u ∈ us, u < 0x10000) : units (decode us) = us := by
  induction us using decode.induct with
  | case1 => rfl
  | case2 u =>
    rw [decode, units_cons, unitsOf_ofNat (hus u List.mem_cons_self)]
    rfl
  | case3 u v rest hpair ih =>
    simp only [List.forall_mem_cons] at hus
    rw [decode_cons_of_pair hpair.1 hpair.2, units_cons, unitsOf_ofPair hpair.1 hpair.2,
      ih hus.2.2]
    rfl
  | case4 u v rest hpair ih =>
    rw [List.forall_mem_cons] at hus
    rw [decode, if_neg hpair, units_cons, unitsOf_ofNat hus.1, ih hus.2]
    rfl

theorem decode_units {cs : Chars} (hcs : ∀ c ∈ cs, ¬c.IsSurrogate) : decode (units cs) = cs := by
  induction cs with
  | nil => rfl
  | cons c cs ih =>
    simp only [List.forall_mem_cons] at hcs
    rw [units_cons, decode_unitsOf_append hcs.1, ih hcs.2]

end Utf16

end UnitText
