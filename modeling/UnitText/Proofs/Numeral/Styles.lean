import UnitText.Proofs.Numeral.Outcome

/-!
# More styles

Styles only add to the grammar of numerals: what writes a numeral under some styles writes the same
numeral under more of them. So a number that is read stays the same number when styles are added.
Of all the ways to fail only one can go away, which is that the text writes no numeral.

## Main definitions

- `Styles.Subset` — every style of one set is a style of another

## Main statements

- `Numeral.IsWritten.mono` — the grammar grows with the styles
- `parse_mono` — what more styles can change
-/

namespace UnitText

/-! ## Sets of styles -/

/-- Every style of the one set is a style of the other. -/
structure Styles.Subset (s t : Styles) : Prop where
  leadingWhite : s.leadingWhite → t.leadingWhite
  trailingWhite : s.trailingWhite → t.trailingWhite
  leadingSign : s.leadingSign → t.leadingSign
  decimalPoint : s.decimalPoint → t.decimalPoint
  thousands : s.thousands → t.thousands
  exponent : s.exponent → t.exponent
  hexLiteral : s.hexLiteral → t.hexLiteral
  binaryLiteral : s.binaryLiteral → t.binaryLiteral
  octalLiteral : s.octalLiteral → t.octalLiteral

/-- Such a set adds nothing to the other. -/
theorem Styles.subset_iff_union_eq {s t : Styles} : s.Subset t ↔ s ∪ t = t := by
  have hor : ∀ a b : Bool, (a || b) = b ↔ (a → b) := by decide
  have hunion : s ∪ t = t ↔ s.union t = t := Iff.rfl
  rw [hunion, union]
  cases t
  simp only [mk.injEq, hor]
  constructor
  · rintro ⟨h₁, h₂, h₃, h₄, h₅, h₆, h₇, h₈, h₉⟩
    exact ⟨h₁, h₂, h₃, h₄, h₅, h₆, h₇, h₈, h₉⟩
  · rintro ⟨h₁, h₂, h₃, h₄, h₅, h₆, h₇, h₈, h₉⟩
    exact ⟨h₁, h₂, h₃, h₄, h₅, h₆, h₇, h₈, h₉⟩

instance (s t : Styles) : Decidable (s.Subset t) :=
  decidable_of_iff (s ∪ t = t) Styles.subset_iff_union_eq.symm

/-! ## The grammar under more styles -/

section

variable {s t : Styles} (hst : s.Subset t) {ds es : List Nat} {cs : Chars}
include hst

theorem DecimalLiteral.WritesWhole.mono (h : WritesWhole s ds cs) : WritesWhole t ds cs := by
  cases h with
  | digits hne hds => exact .digits hne hds
  | groups hs hne hlength hds hgroups => exact .groups (hst.thousands hs) hne hlength hds hgroups

theorem DecimalLiteral.WritesMantissa.mono (h : WritesMantissa s ds es cs) :
    WritesMantissa t ds es cs := by
  cases h with
  | whole h => exact .whole (h.mono hst)
  | point hs h hes => exact .point (hst.decimalPoint hs) (h.mono hst) hes
  | fraction hs hne hes => exact .fraction (hst.decimalPoint hs) hne hes

theorem DecimalLiteral.WritesExponent.mono {n : Int} (h : WritesExponent s n cs) :
    WritesExponent t n cs := by
  cases h with
  | none => exact .none
  | some hs hmark hsign hne hds => exact .some (hst.exponent hs) hmark hsign hne hds

theorem DecimalLiteral.IsWritten.mono {l : DecimalLiteral} (h : l.IsWritten s cs) :
    l.IsWritten t cs := by
  obtain ⟨front, back, rfl, hmantissa, hexponent⟩ := h
  exact ⟨front, back, rfl, hmantissa.mono hst, hexponent.mono hst⟩

theorem Literal.IsMark.mono {c : CodePoint} {base : Nat} (h : IsMark s c base) :
    IsMark t c base := by
  cases h with
  | hex hs h => exact .hex (hst.hexLiteral hs) h
  | binary hs h => exact .binary (hst.binaryLiteral hs) h
  | octal hs h => exact .octal (hst.octalLiteral hs) h

theorem Literal.IsWritten.mono {l : Literal} (h : l.IsWritten s cs) : l.IsWritten t cs := by
  cases h with
  | radix hmark hne hds => exact .radix (hmark.mono hst) hne hds
  | decimal h => exact .decimal (h.mono hst)

/-- What writes a numeral writes the same numeral under more styles. -/
theorem Numeral.IsWritten.mono {n : Numeral} (h : n.IsWritten s cs) : n.IsWritten t cs := by
  obtain ⟨white, sign, body, trailing, rfl, hwhite, hsign, hallowed, hbody, htrailing⟩ := h
  exact ⟨white, sign, body, trailing, rfl,
    ⟨hwhite.1, fun hne => hst.leadingWhite (hwhite.2 hne)⟩, hsign,
    fun hne => hst.leadingSign (hallowed hne), hbody.mono hst,
    ⟨htrailing.1, fun hne => hst.trailingWhite (htrailing.2 hne)⟩⟩

/-- More styles change nothing, unless the text writes no numeral under the fewer ones. -/
theorem parse_eq_or (target : Target) (v : Value) :
    parse target (some t) v = parse target (some s) v ∨
      ∃ cs offset, parse target (some s) v = .error (.problem (.notNumber cs offset)) := by
  cases hnumber : target.styles? with
  | none =>
    left
    simp only [parse, hnumber]
  | some default =>
    cases v with
    | text u =>
      rw [parse_text_eq hnumber, parse_text_eq hnumber, Option.getD_some, Option.getD_some]
      cases hdecode : u.decode with
      | error f => exact .inl rfl
      | ok cs =>
        rw [← hdecode]
        by_cases hwritten : ∃ n : Numeral, n.IsWritten s cs
        · obtain ⟨n, hn⟩ := hwritten
          left
          rw [decode_ofChars_eq hdecode hn fun cs n => n.toValue target cs,
            decode_ofChars_eq hdecode (hn.mono hst) fun cs n => n.toValue target cs]
        · obtain ⟨offset, herror⟩ :=
            decode_ofChars_eq_error hdecode hwritten fun cs n => n.toValue target cs
          exact .inr ⟨cs, offset, herror⟩
    | _ =>
      -- what is no text is refused under any styles
      left
      simp only [parse, hnumber]
      rfl

/-- **More styles change no number.** What is read as a number of a type under some styles is read
as the same number under more styles; and any failure is the same failure, unless it is that the
text writes no numeral. -/
theorem parse_mono (target : Target) (v : Value) :
    (∀ x, parse target (some s) v = .ok x → parse target (some t) v = .ok x) ∧
    ∀ f, parse target (some s) v = .error f →
      (∀ cs offset, f ≠ .problem (.notNumber cs offset)) → parse target (some t) v = .error f := by
  rcases parse_eq_or hst target v with heq | ⟨cs, offset, hinvalid⟩
  · rw [heq]
    exact ⟨fun x hx => hx, fun f hf _ => hf⟩
  · rw [hinvalid]
    refine ⟨nofun, fun f hf hne => ?_⟩
    obtain rfl := Except.error.inj hf
    exact absurd rfl (hne cs offset)

end

/-- A zero before an exponent is no mark of a base, also where marks are allowed. -/
theorem parse_mono_zero : Styles.float.Subset .any ∧
    parse .decimal (some .float) (.text (.ofString " -012.50e3 ")) =
      .ok (.decimal (.finite true 1250 1)) ∧
    parse .decimal (some .any) (.text (.ofString " -012.50e3 ")) =
      .ok (.decimal (.finite true 1250 1)) := by
  have hsubset : Styles.float.Subset .any := by decide
  have hparse : parse .decimal (some .float) (.text (.ofString " -012.50e3 ")) =
      .ok (.decimal (.finite true 1250 1)) := by
    decide +kernel
  exact ⟨hsubset, hparse, (parse_mono hsubset .decimal _).1 _ hparse⟩

end UnitText
