import UnitText.Proofs.Format.Fill
import UnitText.Proofs.Numeral.Read

/-!
# What integers are written as

An integer is written with its sign, the mark of its base and its digits, between blanks. Zeros that
fill the field, that a precision asks for or that mark octal numbers belong to the digits.

## Main definitions

- `Field.Shows` — a text that shows an integer in the notation of a field

## Main statements

- `Field.storedInteger_shows` — an integer is written so that the text shows it
- `Field.Shows.parse_decimal`, `Field.Shows.parse_marked` — what is shown is read again
- `Field.Shows.octal_eq` — octal digits between blanks
-/

namespace UnitText

open Chars

namespace Field

variable {f : Field} {n : Int}

/-- A text with the sign and the mark of an integer, and digits with its magnitude, between
blanks. -/
inductive Shows (f : Field) (n : Int) : Chars → Prop where
  | intro (i j : Nat) {digits : Chars}
    (hdigits : radixValue? f.spec.kind.radix digits = some n.natAbs) :
    Shows f n (blanks i ++ (f.signChars (n < 0) f.spec.kind.isSigned ++
      (points (f.baseMark (n = 0)) ++ (digits ++ blanks j))))

/-- The width and the precision can be met, and zero is not left out. -/
structure IsModerate (f : Field) : Prop where
  width : f.width ≤ 2 ^ 62
  precision : ∀ p ∈ f.precision, 0 < p ∧ p < 2 ^ 62

theorem isSign_signChars (f : Field) (negative signed : Bool) :
    IsSign negative (f.signChars negative signed) := by
  unfold signChars
  split
  · next h =>
    subst h
    exact .minus
  · next h =>
    obtain rfl : negative = false := by simpa using h
    split
    · exact .none
    · split
      · exact .plus
      · split
        · exact .blank
        · exact .none

section

variable {m : Nat} {digits : List Char}

theorem radixValue?_zeros_points (k : Nat)
    (h : radixValue? f.spec.kind.radix (points digits) = some m) :
    radixValue? f.spec.kind.radix (points (List.replicate k '0' ++ digits)) = some m := by
  have hradix := f.spec.kind.radix_bounds
  have hzeros := radixValue?_zeros (by omega) hradix.2 k h
  rwa [points, List.map_append, List.map_replicate]

/-- The zeros that a precision asks for change nothing. -/
theorem exists_precise (hprecision : ∀ p ∈ f.precision, 0 < p ∧ p < 2 ^ 62) (isZero : Bool)
    (h : radixValue? f.spec.kind.radix (points digits) = some m) :
    ∃ ds, f.precise isZero digits = .ok ds ∧
      radixValue? f.spec.kind.radix (points ds) = some m := by
  cases hp : f.precision with
  | none => exact ⟨digits, by rw [precise, hp], h⟩
  | some p =>
    obtain ⟨hpos, hlt⟩ := hprecision p hp
    have hlimit : ¬runLimit ≤ p := by
      simp only [runLimit]
      omega
    have hkept : ¬(p = 0 ∧ isZero = true) := fun hzero => by omega
    refine ⟨zeroPadded p digits, ?_, radixValue?_zeros_points _ h⟩
    rw [precise, hp]
    simp only [hlimit, hkept, ↓reduceIte]

theorem radixValue?_octalMarked (h : radixValue? f.spec.kind.radix (points digits) = some m) :
    radixValue? f.spec.kind.radix (points (f.octalMarked digits)) = some m := by
  unfold octalMarked
  split
  · exact radixValue?_zeros_points 1 h
  · exact h

/-- However a field is filled, the zeros belong to the digits and blanks stand around the number. -/
theorem exists_padNumber (hwidth : f.width ≤ 2 ^ 62) (start : Chars) {digits : Chars} (zeros : Bool)
    (h : radixValue? f.spec.kind.radix digits = some m) :
    ∃ (i j : Nat) (ds : Chars), radixValue? f.spec.kind.radix ds = some m ∧
      f.padNumber start digits zeros = .ok (blanks i ++ (start ++ (ds ++ blanks j))) := by
  have hradix := f.spec.kind.radix_bounds
  rw [padNumber, filling_missing hwidth]
  cases hleft : f.flags.left with
  | true => exact ⟨0, f.missing (start ++ digits), digits, h, by cases zeros <;> simp [blanks]⟩
  | false =>
    cases zeros with
    | false => exact ⟨f.missing (start ++ digits), 0, digits, h, by simp [blanks]⟩
    | true =>
      refine ⟨0, 0, _, radixValue?_zeros (by omega) hradix.2 (f.missing (start ++ digits)) h, ?_⟩
      simp [blanks]

end

/-- An integer is written so that it is shown. -/
theorem storedInteger_shows (hf : f.IsModerate) (n : Int) :
    ∃ cs, f.storedInteger n = .ok cs ∧ f.Shows n cs := by
  obtain ⟨ds, shown, hds, hdigits, hshown⟩ := f.spec.kind.exists_digits n.natAbs
  have hvalue := hds.radixValue?_eq f.spec.kind.radix_bounds.2 hshown
  rw [← hdigits] at hvalue
  obtain ⟨es, hes, hvalue⟩ := exists_precise hf.precision (n = 0) hvalue
  have hvalue := radixValue?_octalMarked hvalue
  obtain ⟨i, j, fs, hvalue, hpad⟩ := exists_padNumber hf.width
    (f.signChars (n < 0) f.spec.kind.isSigned ++ points (f.baseMark (n = 0)))
    (f.flags.zero && f.precision.isNone) hvalue
  refine ⟨_, bind_eq_ok.2 ⟨es, hes, hpad⟩, ?_⟩
  rw [List.append_assoc]
  exact .intro i j hvalue

/-! ## What is read of it -/

/-- The base of a mark is known when it is read. -/
theorem radixOf?_letter {k : Kind} (h : k.radix = 2 ∨ k.radix = 16) :
    Literal.radixOf? .any (CodePoint.ofChar k.letter) = some k.radix := by
  have hmarks : ∀ k ∈ Kind.all, k.radix = 2 ∨ k.radix = 16 →
      Literal.radixOf? .any (CodePoint.ofChar k.letter) = some k.radix := by decide
  exact hmarks k k.mem_all h

/-- Only the decimal conversions have signs. -/
theorem isSigned_eq_false {k : Kind} (h : k.radix ≠ 10) : k.isSigned = false := by
  have hdecimal : ∀ k ∈ Kind.all, k.radix ≠ 10 → k.isSigned = false := by decide
  exact hdecimal k k.mem_all h

theorem signChars_of_nonneg (hsigned : f.spec.kind.isSigned = false) (hn : 0 ≤ n) :
    f.signChars (n < 0) f.spec.kind.isSigned = [] := by
  have hnot : ¬n < 0 := by omega
  simp [signChars, hsigned, hnot]

/-- What is shown in decimal is read. -/
theorem Shows.parse_decimal {cs : Chars} {t : Text} (h : f.Shows n cs) (ht : t.decode = .ok cs)
    (hradix : f.spec.kind.radix = 10) (hn : n.natAbs < 10 ^ 20) :
    parseInteger .any t = .ok n := by
  obtain @⟨i, j, digits, hdigits⟩ := h
  have hmark : f.baseMark (n = 0) = [] := by simp [baseMark, hradix]
  rw [hradix] at hdigits
  rw [hmark] at ht
  rw [parseInteger_decimal (f.isSign_signChars _ _) hdigits hn ht]
  by_cases hneg : n < 0
  · simp only [hneg, decide_true, ↓reduceIte]
    rw [← Int.eq_neg_natAbs_of_nonpos (by omega)]
  · simp only [hneg, decide_false, Bool.false_eq_true, ↓reduceIte]
    rw [Int.natAbs_of_nonneg (by omega)]

/-- What is shown with the mark of its base is read. -/
theorem Shows.parse_marked {cs : Chars} {t : Text} (h : f.Shows n cs) (ht : t.decode = .ok cs)
    (halternate : f.flags.alternate) (hradix : f.spec.kind.radix = 2 ∨ f.spec.kind.radix = 16)
    (hn : 0 ≤ n) : parseInteger .any t = .ok n := by
  obtain @⟨i, j, digits, hdigits⟩ := h
  have hunsigned : f.spec.kind.isSigned = false := isSigned_eq_false (by omega)
  rw [signChars_of_nonneg hunsigned hn] at ht
  by_cases hzero : n = 0
  · -- zero has no mark, and is zero in decimal too
    have hmark : f.baseMark (n = 0) = [] := by simp [baseMark, hzero]
    rw [hzero] at hdigits
    have hten := radixValue?_ten_of_zero (by omega) hdigits
    rw [hmark] at ht
    rw [parseInteger_decimal .none hten (by decide) ht, hzero]
    rfl
  · have hmark : f.baseMark (n = 0) = ['0', f.spec.kind.letter] := by
      simp [baseMark, halternate, hradix, hzero]
    rw [hmark] at ht
    rw [parseInteger_radix (radixOf?_letter hradix) hdigits ht, Int.natAbs_of_nonneg hn]

/-- What is shown in octal are digits between blanks. -/
theorem Shows.octal_eq {cs : Chars} (h : f.Shows n cs) (hradix : f.spec.kind.radix = 8)
    (hn : 0 ≤ n) :
    radixValue? 8 (cs.filter (· ≠ CodePoint.ofChar ' ')) = some n.natAbs := by
  obtain @⟨i, j, digits, hdigits⟩ := h
  have hunsigned : f.spec.kind.isSigned = false := isSigned_eq_false (by omega)
  have hmark : f.baseMark (n = 0) = [] := by simp [baseMark, hradix]
  rw [hradix] at hdigits
  have hkept : digits.filter (· ≠ CodePoint.ofChar ' ') = digits := by
    refine List.filter_eq_self.2 fun c hc => decide_eq_true ?_
    rintro rfl
    obtain ⟨d, hd⟩ := exists_radixDigit? hdigits hc
    cases hd
  have hdropped : ∀ k, (blanks k).filter (· ≠ CodePoint.ofChar ' ') = [] := by
    intro k
    refine List.filter_eq_nil_iff.2 fun c hc => ?_
    simp [List.eq_of_mem_replicate hc]
  rw [signChars_of_nonneg hunsigned hn, hmark]
  simp only [points, List.map_nil, List.nil_append, List.filter_append, hkept, hdropped,
    List.append_nil, hdigits]

theorem not_isSurrogate_points (cs : List Char) : ∀ c ∈ points cs, ¬c.IsSurrogate := by
  intro c hc
  obtain ⟨d, -, rfl⟩ := List.mem_map.1 hc
  exact CodePoint.not_isSurrogate_ofChar d

theorem not_isSurrogate_signChars (f : Field) (negative signed : Bool) :
    ∀ c ∈ f.signChars negative signed, ¬c.IsSurrogate := by
  obtain hnil | ⟨d, -, hd⟩ := f.signChars_eq negative signed
  · simp [hnil]
  · rw [hd]
    exact List.forall_mem_singleton.2 (CodePoint.not_isSurrogate_ofChar d)

theorem Shows.not_isSurrogate {cs : Chars} (h : f.Shows n cs) : ∀ c ∈ cs, ¬c.IsSurrogate := by
  obtain @⟨i, j, digits, hdigits⟩ := h
  have hblanks : ∀ k, ∀ c ∈ blanks k, ¬c.IsSurrogate := by
    intro k c hc
    rw [List.eq_of_mem_replicate hc]
    exact CodePoint.not_isSurrogate_ofChar ' '
  have hdigits : ∀ c ∈ digits, ¬c.IsSurrogate := by
    intro c hc
    obtain ⟨d, hd⟩ := exists_radixDigit? hdigits hc
    have hbounds := bounds_of_radixDigit? hd
    exact fun hsurrogate => absurd hsurrogate.1 (by omega)
  simp only [List.forall_mem_append]
  exact ⟨hblanks i, f.not_isSurrogate_signChars _ _, not_isSurrogate_points _, hdigits, hblanks j⟩

end Field

end UnitText
