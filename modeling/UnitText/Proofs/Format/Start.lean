import UnitText.Format.Float
import UnitText.Proofs.Number.Digits
import UnitText.Proofs.Number.Double
import UnitText.Proofs.Result
import UnitText.Proofs.Template.Parts
import UnitText.Proofs.Value.Machine

/-!
# What numbers begin with

The text of a number begins with a sign and the mark of a base, if it has them, and where they end
can be read off the text: no digits look like a sign or like a mark.

## Main definitions

- `Chars.startLength` — the length of the sign and the mark that a text begins with
- `IsBody` — digits that do not look like a sign or a mark

## Main statements

- `Chars.startLength_append` — where a sign and a mark before digits end
- `Field.isBody_octalMarked`, `Field.isBody_figures` — the digits of integers and of decimal figures
-/

namespace UnitText

theorem CodePoint.ofChar_inj {c d : Char} : ofChar c = ofChar d ↔ c = d := by
  rw [CodePoint.ext_iff, val_ofChar, val_ofChar]
  exact Char.toNat_inj

namespace Chars

/-- The length of the sign that a text begins with: a plus, a minus or a space. -/
def signLength : Chars → Nat
  | [] => 0
  | c :: _ =>
    if c = CodePoint.ofChar '+' ∨ c = CodePoint.ofChar '-' ∨ c = CodePoint.ofChar ' ' then 1 else 0

/-- The length of the mark of a base that a text begins with: `0x`, `0X`, `0b` or `0B`. -/
def markLength : Chars → Nat
  | c :: d :: _ =>
    if c = CodePoint.ofChar '0' ∧ (d = CodePoint.ofChar 'x' ∨ d = CodePoint.ofChar 'X' ∨
      d = CodePoint.ofChar 'b' ∨ d = CodePoint.ofChar 'B') then 2 else 0
  | _ => 0

/-- The length of the sign and of the mark behind it that a text begins with. -/
def startLength (cs : Chars) : Nat := cs.signLength + markLength (cs.drop cs.signLength)

end Chars

/-- Digits that do not look like a mark, nor like a sign unless there is a sign before them. -/
structure IsBody (hasSign : Prop) (digits : List Char) : Prop where
  signLength : ¬hasSign → Chars.signLength (Field.points digits) = 0
  markLength : Chars.markLength (Field.points digits) = 0

namespace IsBody

variable {hasSign : Prop} {digits : List Char}

theorem cons {c : Char} (hc : c ≠ '+' ∧ c ≠ '-' ∧ c ≠ ' ')
    (hmark : c = '0' → ∀ d ∈ digits.head?, d ≠ 'x' ∧ d ≠ 'X' ∧ d ≠ 'b' ∧ d ≠ 'B') :
    IsBody hasSign (c :: digits) where
  signLength := by
    intro
    simp [Field.points, Chars.signLength, CodePoint.ofChar_inj, hc]
  markLength := by
    cases digits with
    | nil => rfl
    | cons d digits =>
      have hne : c = '0' → ¬(d = 'x' ∨ d = 'X' ∨ d = 'b' ∨ d = 'B') := by
        intro hzero
        simpa using hmark hzero d rfl
      simp only [Field.points, List.map_cons, Chars.markLength, CodePoint.ofChar_inj]
      exact if_neg fun h => hne h.1 h.2

theorem minus (h : hasSign) (digits : List Char) : IsBody hasSign ('-' :: digits) where
  signLength := fun hnot => absurd h hnot
  markLength := by
    cases digits with
    | nil => rfl
    | cons d digits => rfl

/-- A zero before digits in front of which no mark could stand. -/
theorem zero_cons (h : ∀ d ∈ digits.head?, d ≠ 'x' ∧ d ≠ 'X' ∧ d ≠ 'b' ∧ d ≠ 'B') :
    IsBody hasSign ('0' :: digits) :=
  cons (by decide) fun _ => h

end IsBody

namespace Chars

/-- A sign and a mark before digits end where the digits begin. -/
theorem startLength_append {sign mark : Chars} {digits : List Char}
    (hsign : sign = [] ∨ ∃ c ∈ ['+', '-', ' '], sign = [CodePoint.ofChar c])
    (hmark : mark = [] ∨ ∃ c ∈ ['x', 'X', 'b', 'B'],
      mark = [CodePoint.ofChar '0', CodePoint.ofChar c])
    (hbody : mark = [] → IsBody (sign ≠ []) digits) :
    startLength (sign ++ mark ++ Field.points digits) = (sign ++ mark).length := by
  have hbehind : markLength (mark ++ Field.points digits) = mark.length := by
    rcases hmark with rfl | ⟨c, hc, rfl⟩
    · exact (hbody rfl).markLength
    · simp only [List.cons_append, markLength, CodePoint.ofChar_inj]
      exact if_pos ⟨trivial, by simpa using hc⟩
  have hlength : signLength (sign ++ mark ++ Field.points digits) = sign.length := by
    rcases hsign with rfl | ⟨c, hc, rfl⟩
    · rcases hmark with rfl | ⟨c, _, rfl⟩
      · exact (hbody rfl).signLength (by simp)
      · rfl
    · simp only [List.cons_append, signLength, CodePoint.ofChar_inj]
      exact if_pos (by simpa using hc)
  rw [startLength, hlength, List.append_assoc, List.drop_left, hbehind, List.length_append]

end Chars

/-! ## Digits of integers -/

theorem Kind.radix_bounds (k : Kind) : 1 < k.radix ∧ k.radix ≤ 16 := by
  unfold radix
  split <;> decide

/-- The digits of a number are those of its base, perhaps with capitals. -/
theorem Kind.exists_digits (k : Kind) (n : Nat) :
    ∃ (ds : List Nat) (shown : Nat → Char), DigitsOf k.radix n ds ∧ k.digits n = ds.map shown ∧
      ∀ d, shown d = d.digitChar ∨ shown d = d.digitChar.toUpper := by
  obtain ⟨ds, hds, hdigits⟩ := exists_radixDigits k.radix_bounds.1 n
  by_cases hk : k = .integer (.hex true)
  · subst hk
    refine ⟨ds, fun d => d.digitChar.toUpper, hds, ?_, fun d => .inr rfl⟩
    have hlower : radixDigits 16 n = ds.map Nat.digitChar := hdigits
    show (radixDigits 16 n).map Char.toUpper = _
    rw [hlower, List.map_map]
    rfl
  · refine ⟨ds, Nat.digitChar, hds, ?_, fun d => .inl rfl⟩
    rw [digits, if_neg hk, hdigits]

/-- Digits do not look like signs, and those of bases up to eight do not look like marks. -/
theorem digitChar_plain {d : Nat} (hd : d < 16) {c : Char}
    (hc : c = d.digitChar ∨ c = d.digitChar.toUpper) :
    (c ≠ '+' ∧ c ≠ '-' ∧ c ≠ ' ') ∧ (c = '0' → d = 0) ∧
      (d < 8 → c ≠ 'x' ∧ c ≠ 'X' ∧ c ≠ 'b' ∧ c ≠ 'B') := by
  rcases hc with rfl | rfl
  all_goals
    revert d
    decide

/-- Digits of an integer, perhaps behind a minus of their own, and perhaps marked as octal ones. -/
theorem Field.isBody_octalMarked {f : Field} {hasSign : Prop} {own : List Char}
    (hown : own = [] ∨ own = ['-'] ∧ hasSign) (n : Nat) :
    IsBody hasSign (f.octalMarked (own ++ f.spec.kind.digits n)) := by
  obtain ⟨ds, shown, hds, hdigits, hshown⟩ := f.spec.kind.exists_digits n
  obtain ⟨d, rest, rfl⟩ := List.exists_cons_of_ne_nil hds.ne_nil
  have hd : d < f.spec.kind.radix := hds.lt d List.mem_cons_self
  have hradix := f.spec.kind.radix_bounds.2
  obtain ⟨hsign, hzero, hmark⟩ := digitChar_plain (by omega) (hshown d)
  rw [hdigits, octalMarked]
  rcases hown with rfl | ⟨rfl, hown⟩
  · split
    · next hoctal =>
      refine .zero_cons fun c hc => ?_
      obtain rfl : shown d = c := Option.some.inj hc
      exact hmark (by omega)
    · refine .cons hsign fun hd' => ?_
      -- a zero is the only digit, so nothing follows it
      obtain ⟨-, rfl⟩ := List.cons.inj (hds.canonical (congrArg some (hzero hd')))
      simp
  · split
    · exact .zero_cons (by simp)
    · exact .minus hown _

/-! ## Magnitudes -/

/-- A magnitude is negative only if it is that of the lowest machine integer of its type. -/
theorem Value.any_neg_of_magnitude {v m : Value} {n : Int} (hm : v.magnitude = .ok m)
    (hn : m.integer? = some n) (hneg : n < 0) : v.integer?.any (· < 0) := by
  unfold magnitude at hm
  split at hm
  case h_1 b =>
    cases hm
    cases hn
    cases b <;> cases hneg
  case h_2 x =>
    cases hm
    obtain rfl := Option.some.inj hn
    -- an integer that is not negative is its own magnitude, and its type holds it
    by_cases hx : 0 ≤ x.value
    · have hheld : x.type.hold x.value.natAbs < 0 := hneg
      rw [Int.natAbs_of_nonneg hx, MachineInteger.hold_value] at hheld
      omega
    · exact decide_eq_true (Int.not_le.1 hx)
  case h_5 =>
    obtain ⟨_, _, hm⟩ := bind_eq_ok.1 hm
    cases hm
    cases hn
  case h_7 =>
    split at hm
    · cases hm
      obtain rfl := Option.some.inj hn
      omega
    · next hnone =>
      split at hm
      · cases hm
        rw [hnone] at hn
        cases hn
      · cases hm
  all_goals
    cases hm
    cases hn

/-- A magnitude is laid out in a base only if it is an integer. -/
theorem Value.layout_of_magnitude {v m : Value} (hm : v.magnitude = .ok m) {letter : Char}
    (hletter : letter ≠ 'f') {s : String} (hs : m.layout letter = .ok s) :
    ∃ n, m.integer? = some n ∧ Integer.layout letter n = .ok s := by
  -- a date is laid out by any letter, but has no magnitude
  have hdate : (∀ d, m ≠ .date d) ∧ (∀ t, m ≠ .time t) ∧ ∀ d, m ≠ .dateTime d := by
    unfold magnitude at hm
    refine ⟨?_, ?_, ?_⟩
    all_goals
      rintro x rfl
      split at hm
      case h_5 =>
        obtain ⟨_, _, hm⟩ := bind_eq_ok.1 hm
        cases hm
      case h_7 =>
        split at hm
        · cases hm
        · split at hm
          · next helements =>
            cases hm
            cases helements
          · cases hm
      all_goals cases hm
  unfold layout at hs
  split at hs
  · next hn => exact ⟨_, hn, hs⟩
  · rw [if_neg hletter] at hs
    cases hs
  · split at hs
    · rw [if_neg hletter] at hs
      cases hs
    · exact absurd rfl (hdate.1 _)
    · exact absurd rfl (hdate.2.1 _)
    · exact absurd rfl (hdate.2.2 _)
    · cases hs
    · split at hs
      · cases hs
      · cases hs

theorem Kind.layoutLetter_ne {k : Kind} (hk : k.isInteger) : k.layoutLetter ≠ 'f' := by
  have hletter : ∀ k ∈ all, k.isInteger → k.layoutLetter ≠ 'f' := by decide
  exact hletter k k.mem_all hk

theorem Value.integerText_eq_ok {n : Int} {s : String} (h : integerText n = .ok s) :
    Integer.text n = s := by
  unfold integerText at h
  split at h
  · next t ht =>
    obtain rfl := Except.ok.inj h
    unfold Integer.text? at ht
    split at ht
    · exact Option.some.inj ht
    · cases ht
  · cases h

/-- The layout of an integer in the base of a conversion: its digits, behind a minus if it is
negative. -/
theorem Integer.toList_of_layout {k : Kind} (hk : k.isInteger) {n : Int} {s : String}
    (h : layout k.layoutLetter n = .ok s) :
    ∃ own, s.toList = own ++ k.digits n.natAbs ∧ (own = [] ∨ own = ['-'] ∧ n < 0) := by
  have hsigned : ∀ digits : List Char,
      .ok (String.ofList (if n < 0 then '-' :: digits else digits)) = (.ok s : Except Failure _) →
      ∃ own, s.toList = own ++ digits ∧ (own = [] ∨ own = ['-'] ∧ n < 0) := by
    intro digits hs
    obtain rfl := Except.ok.inj hs
    rw [String.toList_ofList]
    split
    · next hneg => exact ⟨['-'], rfl, .inr ⟨rfl, hneg⟩⟩
    · exact ⟨[], rfl, .inl rfl⟩
  have hdecimal : Value.integerText n = .ok s →
      ∃ own, s.toList = own ++ radixDigits 10 n.natAbs ∧ (own = [] ∨ own = ['-'] ∧ n < 0) := by
    intro hs
    refine hsigned _ ?_
    rw [← Value.integerText_eq_ok hs, Integer.text]
    split
    · simp [Nat.repr_eq_ofList_toDigits, radixDigits]
    · simp [Nat.repr_eq_ofList_toDigits, radixDigits]
  cases k with
  | integer form =>
    cases form with
    | signedD | signedI | unsigned => exact hdecimal h
    | octal => exact hsigned _ h
    | hex upper => cases upper <;> exact hsigned _ h
    | binary upper => exact hsigned _ h
  | _ => cases hk

/-! ## Digits of decimal figures -/

namespace Figures

theorem isDigit_of_mem_zeroPadded {n k : Nat} {c : Char} (hc : c ∈ zeroPadded k (decimalDigits n)) :
    c.isDigit := by
  rw [zeroPadded, List.leftpad, decimalDigits_eq] at hc
  rcases List.mem_append.1 hc with hc | hc
  · rw [List.eq_of_mem_replicate hc]
    rfl
  · exact Nat.isDigit_of_mem_toDigits (by decide) (by decide) hc

/-- The digits before the point are digits, and there is one at least. -/
structure HasWhole (f : Figures) : Prop where
  isDigit : ∀ c ∈ f.whole, c.isDigit
  ne_nil : f.whole ≠ []

theorem hasWhole_ofUnits (places n : Nat) : (ofUnits places n).HasWhole where
  isDigit := fun _ hc => isDigit_of_mem_zeroPadded (List.mem_of_mem_take hc)
  ne_nil := by
    have hlength : places + 1 ≤ (zeroPadded (places + 1) (decimalDigits n)).length := by
      simp only [zeroPadded, List.length_leftpad]
      omega
    apply List.ne_nil_of_length_pos
    simp only [ofUnits, List.length_take]
    omega

theorem hasWhole_scientific (c : Nat) (e : Int) (places : Nat) (zeroExponent : Int) :
    (scientific c e places zeroExponent).HasWhole := by
  unfold scientific
  split
  · exact ⟨(hasWhole_ofUnits places 0).isDigit, (hasWhole_ofUnits places 0).ne_nil⟩
  · exact ⟨(hasWhole_ofUnits places _).isDigit, (hasWhole_ofUnits places _).ne_nil⟩

theorem hasWhole_general (c : Nat) (e : Int) (precision : Nat) (keepZeros : Bool) :
    (general c e precision keepZeros).HasWhole := by
  have hfigures : ∀ {p : Prop} [Decidable p] {places places' : Nat},
      (if p then fixed c e places else scientific c e places' 0).HasWhole := by
    intro p _ places places'
    split
    · exact hasWhole_ofUnits _ _
    · exact hasWhole_scientific _ _ _ _
  simp only [general]
  split
  · exact hfigures
  · exact ⟨hfigures.isDigit, hfigures.ne_nil⟩

end Figures

theorem Field.hasWhole_figures (form : FloatForm) (c : Nat) (e : Int) (p : Nat) (zeroExponent : Int)
    (alternate : Bool) : (figures form c e p zeroExponent alternate).HasWhole := by
  cases form with
  | exponent => exact Figures.hasWhole_scientific _ _ _ _
  | general => exact Figures.hasWhole_general _ _ _ _
  | fixed | hex => exact Figures.hasWhole_ofUnits _ _

/-- Behind the first digit of decimal figures stands a digit, a point or the mark of an exponent. -/
theorem Figures.HasWhole.chars_eq {f : Figures} (h : f.HasWhole) (keepPoint : Bool) :
    ∃ c rest, f.chars keepPoint = c :: rest ∧ c.isDigit ∧
      ∀ d ∈ rest.head?, d.isDigit ∨ d = '.' ∨ d = 'e' := by
  obtain ⟨whole, fraction, exponent⟩ := f
  obtain ⟨c, whole, rfl⟩ := List.exists_cons_of_ne_nil h.ne_nil
  obtain ⟨hc, hwhole⟩ := List.forall_mem_cons.1 h.isDigit
  simp only [chars, List.cons_append]
  refine ⟨c, _, rfl, hc, fun d hd => ?_⟩
  cases whole with
  | cons d' whole =>
    obtain rfl : d' = d := Option.some.inj hd
    exact .inl (hwhole d' List.mem_cons_self)
  | nil =>
    rw [List.nil_append] at hd
    split at hd
    · cases exponent with
      | none => cases hd
      | some x => exact .inr (.inr (Option.some.inj hd).symm)
    · exact .inr (.inl (Option.some.inj hd).symm)

theorem toUpper_of_isDigit {c : Char} (hc : c.isDigit) : c.toUpper = c := by
  simp only [Char.isDigit, Bool.and_eq_true, decide_eq_true_eq, UInt32.le_iff_toNat_le] at hc
  refine dif_neg ?_
  simp only [UInt32.le_iff_toNat_le]
  rintro ⟨ha, -⟩
  have hlt : '9'.val.toNat < 'a'.val.toNat := by decide
  omega

/-- Decimal figures, perhaps behind a minus of their own, and perhaps with capitals. -/
theorem Field.isBody_figures (f : Field) {hasSign : Prop} {own : List Char}
    (hown : own = [] ∨ own = ['-'] ∧ hasSign) {g : Figures} (hg : g.HasWhole) (keepPoint : Bool) :
    IsBody hasSign (if f.spec.kind.isUpper then (own ++ g.chars keepPoint).map Char.toUpper
      else own ++ g.chars keepPoint) := by
  obtain ⟨c, rest, hchars, hc, hrest⟩ := hg.chars_eq keepPoint
  rw [hchars]
  have hsign : c ≠ '+' ∧ c ≠ '-' ∧ c ≠ ' ' := by
    refine ⟨?_, ?_, ?_⟩
    all_goals
      rintro rfl
      cases hc
  have hmark : ∀ d ∈ rest.head?, ∀ e, e = d ∨ e = d.toUpper →
      e ≠ 'x' ∧ e ≠ 'X' ∧ e ≠ 'b' ∧ e ≠ 'B' := by
    intro d hd e he
    rcases hrest d hd with hd | rfl | rfl
    · obtain rfl : e = d := he.elim id fun he => he.trans (toUpper_of_isDigit hd)
      refine ⟨?_, ?_, ?_, ?_⟩
      all_goals
        rintro rfl
        cases hd
    · rcases he with rfl | rfl <;> decide
    · rcases he with rfl | rfl <;> decide
  rcases hown with rfl | ⟨rfl, hown⟩
  · split
    · rw [List.nil_append, List.map_cons, toUpper_of_isDigit hc]
      refine .cons hsign fun _ e he => ?_
      rw [List.head?_map, Option.mem_def, Option.map_eq_some_iff] at he
      obtain ⟨d, hd, rfl⟩ := he
      exact hmark d hd _ (.inr rfl)
    · exact .cons hsign fun _ d hd => hmark d hd d (.inl rfl)
  · split
    · exact .minus hown _
    · exact .minus hown _

end UnitText
