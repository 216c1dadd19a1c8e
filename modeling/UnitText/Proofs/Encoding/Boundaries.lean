import UnitText.Proofs.Encoding.AsciiUnits

/-!
# Where characters begin

A unit shows by itself whether a character begins with it: a byte, unless it is a continuation; a
unit of UTF-16, unless it is the second half of a pair. So the units of one text are among those of
another only where its characters are, and texts can be searched without decoding them.

## Main definitions

- `Utf8.leadByte`, `Utf8.tailBytes` — the bytes of a character, as digits to the base of 64
- `Width.Begins` — the units that a character begins with

## Main statements

- `Width.exists_unitsOf` — the first unit of a character begins it, the others do not
- `Width.exists_units_of_begins` — units are cut where a character begins, and only there
- `Width.units_prefix_iff`, `Width.units_suffix_iff`, `Width.units_infix_iff` — parts of the units
  are parts of the text
-/

namespace UnitText

namespace Utf8

/-- How many bytes of a character stand behind the first one. -/
def tailLength (v : Nat) : Nat :=
  if v < 0x80 then 0 else if v < 0x800 then 1 else if v < 0x10000 then 2 else 3

/-- What the first byte is counted from, by the number of bytes behind it. -/
def leadMark : Nat → Nat
  | 0 => 0
  | 1 => 0xC0
  | 2 => 0xE0
  | _ => 0xF0

/-- The first byte of a character. -/
def leadByte (v : Nat) : Nat := leadMark (tailLength v) + v / 0x40 ^ tailLength v

/-- The last `n` digits of a number to the base of 64, as continuations. -/
def tailBytes : Nat → Nat → List Nat
  | 0, _ => []
  | n + 1, v => (0x80 + v / 0x40 ^ n % 0x40) :: tailBytes n v

theorem bytesOf_eq {c : CodePoint} (hc : ¬c.IsSurrogate) :
    bytesOf c = leadByte c.val :: tailBytes (tailLength c.val) c.val := by
  rw [bytesOf_of_not_isSurrogate hc]
  simp only [leadByte, tailLength]
  split_ifs <;> simp [leadMark, tailBytes]

theorem isContinuation_of_mem_tailBytes {n v b : Nat} (hb : b ∈ tailBytes n v) :
    IsContinuation b := by
  induction n with
  | zero => exact absurd hb List.not_mem_nil
  | succ n ih =>
    rcases List.mem_cons.1 hb with rfl | hb
    · have hdigit := Nat.mod_lt (v / 0x40 ^ n) (by decide : 0 < 0x40)
      exact ⟨by omega, by omega⟩
    · exact ih hb

theorem not_isContinuation_leadByte (v : Nat) : ¬IsContinuation (leadByte v) := by
  rintro ⟨hle, hlt⟩
  by_cases hv : v < 0x80
  · rw [leadByte, tailLength, if_pos hv, leadMark] at hle
    omega
  · have hmark : 0xC0 ≤ leadMark (tailLength v) := by
      rw [tailLength, if_neg hv]
      split_ifs <;> decide
    exact absurd (hmark.trans (Nat.le_add_right _ _)) (Nat.not_le.2 hlt)

end Utf8

namespace Width

variable {w : Width} {c : CodePoint} {cs ds : Chars} {u : Nat} {us vs : List Nat}

/-- A character begins with a unit of this kind, and goes on with units of other kinds. -/
def Begins : Width → Nat → Prop
  | narrow, u => ¬Utf8.IsContinuation u
  | wide16, u => ¬Utf16.IsLow u
  | wide32, _ => True

/-- The first unit of a character begins it, and no other one begins a character. -/
theorem exists_unitsOf (w : Width) (hc : ¬c.IsSurrogate) :
    ∃ u us, w.unitsOf c = u :: us ∧ w.Begins u ∧ ∀ v ∈ us, ¬w.Begins v := by
  cases w with
  | narrow =>
    refine ⟨_, _, Utf8.bytesOf_eq hc, Utf8.not_isContinuation_leadByte _, fun v hv => ?_⟩
    exact not_not_intro (Utf8.isContinuation_of_mem_tailBytes hv)
  | wide16 =>
    have hlt := c.val_lt
    simp only [CodePoint.IsSurrogate] at hc
    simp only [unitsOf, Utf16.unitsOf]
    split
    · refine ⟨_, _, rfl, ?_, List.forall_mem_nil _⟩
      rintro ⟨hle, hlow⟩
      omega
    · refine ⟨_, _, rfl, ?_, List.forall_mem_singleton.2 (not_not_intro ⟨by omega, by omega⟩)⟩
      rintro ⟨hle, -⟩
      omega
  | wide32 => exact ⟨_, _, rfl, trivial, List.forall_mem_nil _⟩

theorem decode_units_append (hcs : ∀ c ∈ cs, ¬c.IsSurrogate) (us : List Nat) :
    w.decode (w.units cs ++ us) = cs ++ w.decode us := by
  induction cs with
  | nil => rfl
  | cons c cs ih =>
    rw [List.forall_mem_cons] at hcs
    have hdecode : ∀ vs, w.decode (w.unitsOf c ++ vs) = c :: w.decode vs := by
      intro vs
      cases w with
      | narrow => exact Utf8.decode_bytesOf_append hcs.1 vs
      | wide16 => exact Utf16.decode_unitsOf_append hcs.1 vs
      | wide32 => simp [decode, unitsOf]
    rw [units_cons, List.append_assoc, hdecode, ih hcs.2, List.cons_append]

theorem decode_units (hcs : ∀ c ∈ cs, ¬c.IsSurrogate) : w.decode (w.units cs) = cs := by
  have hnil : w.decode [] = [] := by cases w <;> rfl
  have h := decode_units_append (w := w) hcs []
  rwa [List.append_nil, hnil, List.append_nil] at h

/-- Where a unit begins a character, the units are cut between two characters. -/
theorem exists_units_of_begins (hcs : ∀ c ∈ cs, ¬c.IsSurrogate) (hu : w.Begins u)
    (h : w.units cs = us ++ u :: vs) :
    ∃ ds es, cs = ds ++ es ∧ w.units ds = us ∧ w.units es = u :: vs := by
  induction cs generalizing us with
  | nil => exact absurd h.symm (by simp [units])
  | cons c cs ih =>
    rw [List.forall_mem_cons] at hcs
    cases us with
    | nil => exact ⟨[], c :: cs, rfl, rfl, h⟩
    | cons a us =>
      obtain ⟨lead, tail, hunits, -, htail⟩ := exists_unitsOf w hcs.1
      rw [units_cons, hunits, List.cons_append, List.cons_append, List.cons.injEq] at h
      obtain ⟨rfl, h⟩ := h
      -- the cut is behind this character, because nothing in it begins another one
      have hbehind : ∃ rest, us = tail ++ rest ∧ w.units cs = rest ++ u :: vs := by
        rcases List.append_eq_append_iff.1 h with ⟨rest, hus, hrest⟩ | ⟨rest, hus, hrest⟩
        · exact ⟨rest, hus, hrest⟩
        · cases rest with
          | nil => exact ⟨[], by simpa using hus.symm, by simpa using hrest.symm⟩
          | cons b rest =>
            obtain ⟨rfl, -⟩ := List.cons.inj hrest
            exact absurd hu (htail u (hus ▸ by simp))
      obtain ⟨rest, rfl, hrest⟩ := hbehind
      obtain ⟨ds, es, rfl, hds, hes⟩ := ih hcs.2 hrest
      refine ⟨c :: ds, es, rfl, ?_, hes⟩
      rw [units_cons, hds, hunits, List.cons_append]

/-- The units of one text begin with those of another just if the texts do. -/
theorem units_prefix_iff (hcs : ∀ c ∈ cs, ¬c.IsSurrogate) (hds : ∀ c ∈ ds, ¬c.IsSurrogate) :
    w.units ds <+: w.units cs ↔ ds <+: cs := by
  refine ⟨?_, units_prefix⟩
  rintro ⟨us, hus⟩
  refine ⟨w.decode us, ?_⟩
  rw [← decode_units_append hds, hus, decode_units hcs]

/-- The units of a text that is not empty are found where a character begins. -/
theorem exists_units_of_append (hcs : ∀ c ∈ cs, ¬c.IsSurrogate) (hds : ∀ c ∈ ds, ¬c.IsSurrogate)
    (hne : ds ≠ []) (h : w.units cs = us ++ (w.units ds ++ vs)) :
    ∃ front back, cs = front ++ back ∧ w.units back = w.units ds ++ vs := by
  cases ds with
  | nil => exact absurd rfl hne
  | cons d ds =>
    obtain ⟨u, rest, hunits, hu, -⟩ := exists_unitsOf w (hds d List.mem_cons_self)
    have hcons : w.units (d :: ds) ++ vs = u :: (rest ++ w.units ds ++ vs) := by
      rw [units_cons, hunits, List.cons_append, List.cons_append]
    rw [hcons] at h ⊢
    obtain ⟨front, back, hsplit, -, hback⟩ := exists_units_of_begins hcs hu h
    exact ⟨front, back, hsplit, hback⟩

/-- The units of one text end with those of another just if the texts do. -/
theorem units_suffix_iff (hcs : ∀ c ∈ cs, ¬c.IsSurrogate) (hds : ∀ c ∈ ds, ¬c.IsSurrogate) :
    w.units ds <:+ w.units cs ↔ ds <:+ cs := by
  constructor
  · rintro ⟨us, hus⟩
    by_cases hne : ds = []
    · exact hne ▸ List.nil_suffix
    have hend : w.units cs = us ++ (w.units ds ++ []) := by rw [List.append_nil, hus]
    obtain ⟨front, back, rfl, hback⟩ := exists_units_of_append hcs hds hne hend
    rw [List.forall_mem_append] at hcs
    rw [List.append_nil] at hback
    have heq : back = ds := by rw [← decode_units hcs.2, hback, decode_units hds]
    exact heq ▸ List.suffix_append _ _
  · rintro ⟨es, rfl⟩
    rw [units_append]
    exact List.suffix_append _ _

/-- The units of one text occur in those of another just if the text occurs in the other one. -/
theorem units_infix_iff (hcs : ∀ c ∈ cs, ¬c.IsSurrogate) (hds : ∀ c ∈ ds, ¬c.IsSurrogate) :
    w.units ds <:+: w.units cs ↔ ds <:+: cs := by
  constructor
  · rintro ⟨us, vs, hus⟩
    by_cases hne : ds = []
    · exact hne ▸ List.nil_infix
    obtain ⟨front, back, rfl, hback⟩ :=
      exists_units_of_append hcs hds hne (by rw [← hus, List.append_assoc])
    rw [List.forall_mem_append] at hcs
    have hprefix : ds <+: back :=
      (units_prefix_iff hcs.2 hds).1 (hback ▸ List.prefix_append _ _)
    exact hprefix.isInfix.trans (List.suffix_append _ _).isInfix
  · rintro ⟨es, fs, rfl⟩
    rw [units_append, units_append]
    exact List.infix_append _ _ _

end Width

end UnitText
