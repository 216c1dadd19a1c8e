import UnitText.Number.Shortest
import UnitText.Proofs.Numeral.Exact
import UnitText.Proofs.Numeral.Grammar

/-!
# Decimal figures as literals

The figures of a decimal number, written out, are a literal of that number, rounded to the places
that are shown: in the layouts with a number of places, with an exponent and with a number of
significant digits, and without the zeros that end the fraction.

## Main definitions

- `Chars.ofDigits` — digits as they are written
- `Figures.Shows` — the digits and the exponent of figures are those of a literal
- `Figures.KeepsFigures` — a change of letters that figures can be written with

## Main statements

- `Figures.exists_shows_fixed`, `Figures.exists_shows_scientific`, `Figures.exists_shows_general` —
  the literals of the layouts are rounded numbers
- `Figures.Shows.trimmed` — zeros that end the fraction make no difference
- `Figures.Shows.isWritten` — figures written out are their literal
- `Double.exists_isWritten_layout` — so are the texts of magnitudes
-/

namespace UnitText

/-! ## Digits -/

/-- The digits of a number, with zeros before them. -/
theorem exists_zeroPadded (width n : ℕ) : ∃ ds : List ℕ,
    zeroPadded width (decimalDigits n) = ds.map Nat.digitChar ∧ (∀ d ∈ ds, d < 10) ∧
      digitsValue 10 ds = n ∧ width ≤ ds.length := by
  obtain ⟨ds, hds, hlt, hvalue, hlength⟩ :=
    exists_zeroPadded_radixDigits (by decide : 1 < 10) width n
  rw [decimalDigits_eq]
  exact ⟨ds, hds, hlt, hvalue, hlength ▸ le_max_left _ _⟩

/-- Digits that are written are read. -/
theorem map_digit?_digitChar {ds : List ℕ} (h : ∀ d ∈ ds, d < 10) :
    ((ds.map Nat.digitChar).map CodePoint.ofChar).map CodePoint.digit? = ds.map some := by
  rw [List.map_map, List.map_map]
  exact List.map_congr_left fun d hd =>
    digit?_of_radixDigit? (radixDigit?_digitChar (by decide) (h d hd) (.inl rfl))

/-- Digits as they are written. -/
def Chars.ofDigits (ds : List ℕ) : Chars := (ds.map Nat.digitChar).map CodePoint.ofChar

/-- Written digits are read up to what follows them. -/
theorem digitRun_ofDigits {ds : List ℕ} (h : ∀ d ∈ ds, d < 10) {rest : Chars}
    (hrest : ∀ c ∈ rest.head?, c.digit? = none) :
    digitRun (Chars.ofDigits ds ++ rest) = (ds, rest) :=
  digitRun_append (map_digit?_digitChar h) hrest

namespace Figures

variable {f : Figures} {l : DecimalLiteral}

/-- The digits and the exponent of the figures are those of the literal. -/
structure Shows (f : Figures) (l : DecimalLiteral) : Prop where
  whole : f.whole = l.whole.map Nat.digitChar
  fraction : f.fraction = l.fraction.map Nat.digitChar
  exponent : f.exponent.getD 0 = l.exponent
  lt : ∀ d ∈ l.whole ++ l.fraction, d < 10
  ne_nil : l.whole ≠ []

/-- A number of units is laid out with their places. -/
theorem exists_shows_ofUnits (places n : ℕ) : ∃ l : DecimalLiteral, (ofUnits places n).Shows l ∧
    l.coefficient = n ∧ l.fraction.length = places ∧ l.exponent = 0 := by
  obtain ⟨ds, hdigits, hlt, hvalue, hlength⟩ := exists_zeroPadded (places + 1) n
  have hsplit : ds.take (ds.length - places) ++ ds.drop (ds.length - places) = ds :=
    List.take_append_drop _ ds
  refine ⟨{ whole := ds.take (ds.length - places), fraction := ds.drop (ds.length - places),
            exponent := 0 }, ⟨?_, ?_, rfl, ?_, ?_⟩, ?_, ?_, rfl⟩
  · simp only [ofUnits, hdigits, List.length_map, List.map_take]
  · simp only [ofUnits, hdigits, List.length_map, List.map_drop]
  · rwa [hsplit]
  · apply List.ne_nil_of_length_pos
    rw [List.length_take]
    omega
  · rw [DecimalLiteral.coefficient, hsplit, hvalue]
  · rw [List.length_drop]
    omega

/-- Zeros at the end of the fraction make no difference to the number. -/
theorem value_zeros (whole es : List ℕ) (exponent : ℤ) (k : ℕ) :
    DecimalLiteral.value { whole, fraction := es ++ List.replicate k 0, exponent } =
      DecimalLiteral.value { whole, fraction := es, exponent } := by
  have hzeros : digitsValue 10 (List.replicate k 0) = 0 := by
    rw [← List.append_nil (List.replicate k 0), digitsValue_zeros]
    rfl
  rw [DecimalLiteral.value_eq, DecimalLiteral.value_eq]
  simp only [DecimalLiteral.coefficient, DecimalLiteral.power]
  rw [← List.append_assoc, digitsValue_append, hzeros, Nat.add_zero, List.length_replicate,
    List.length_append, List.length_replicate]
  have hpower : exponent - (es.length : ℤ) = exponent - ((es.length + k : ℕ) : ℤ) + k := by omega
  rw [hpower, zpow_add₀ (by norm_num), zpow_natCast]
  push_cast
  ring

/-- Without the zeros that end the fraction the figures show the same number. -/
theorem Shows.trimmed (h : f.Shows l) :
    ∃ l', f.trimmed.Shows l' ∧ l'.value = l.value ∧ l'.fraction.getLast? ≠ some 0 := by
  obtain ⟨whole, fraction, exponent⟩ := l
  obtain ⟨hwhole, hfraction, hexponent, hlt, hne⟩ := h
  simp only at hwhole hfraction hexponent hlt hne
  obtain ⟨hwholeLt, hfractionLt⟩ := List.forall_mem_append.1 hlt
  obtain ⟨es, k, rfl, hlast, hdrop⟩ :=
    exists_dropWhile_zero fun d hd => (hfractionLt d hd).trans (by decide)
  have hes := (List.forall_mem_append.1 hfractionLt).1
  refine ⟨{ whole, fraction := es, exponent }, ⟨hwhole, ?_, hexponent, ?_, hne⟩,
    (value_zeros whole es exponent k).symm, hlast⟩
  · rw [← hdrop, ← hfraction]
    rfl
  · exact List.forall_mem_append.2 ⟨hwholeLt, hes⟩

/-! ## Layouts -/

/-- A number of units of a place. -/
theorem value_units {places n : ℕ} {exponent : ℤ} (hcoefficient : l.coefficient = n)
    (hplaces : l.fraction.length = places) (hexponent : l.exponent = exponent) :
    l.value = n * 10 ^ (exponent - places) := by
  rw [DecimalLiteral.value_eq, hcoefficient, DecimalLiteral.power, hplaces, hexponent]

/-- The layout with a number of places, to the last of which the number is rounded. -/
theorem exists_shows_fixed (c : ℕ) (e : ℤ) (places : ℕ) :
    ∃ l, (fixed c e places).Shows l ∧ RoundsAt (-places) (c * 10 ^ e) l.value ∧
      l.fraction.length = places := by
  obtain ⟨l, hl, hcoefficient, hplaces, hexponent⟩ :=
    exists_shows_ofUnits places (scaleRounded c (e + places))
  refine ⟨l, hl, ?_, hplaces⟩
  rw [value_units hcoefficient hplaces hexponent, zero_sub, ← sub_neg_eq_add]
  exact roundsAt_scaleRounded c e (-places)

/-- The layout with all places. -/
theorem exists_shows_plain (c : ℕ) (e : ℤ) :
    ∃ l, (plain c e).Shows l ∧ l.value = c * 10 ^ e := by
  obtain ⟨l, hl, hround, -⟩ := exists_shows_fixed c e (-e).toNat
  refine ⟨l, hl, hround.eq_self (k := c * 10 ^ e.toNat) ?_⟩
  have hsum : e = (e.toNat : ℤ) + -((-e).toNat : ℤ) := by omega
  nth_rewrite 1 [hsum]
  rw [zpow_add₀ (by norm_num), zpow_natCast]
  push_cast
  ring

variable {c : ℕ} {e : ℤ}

/-- The significant digits are those of the number rounded to the last of them. With a carry this
is the same number as rounded to the place before that. -/
theorem exists_significant (hc : c ≠ 0) (e : ℤ) (places : ℕ) :
    ∃ (n : ℕ) (top : ℤ), significant c e (places + 1) = (n, top) ∧
      RoundsAt (Int.log 10 (c * 10 ^ e : ℚ) - places) (c * 10 ^ e) (n * 10 ^ (top - places)) ∧
      RoundsAt (top - places) (c * 10 ^ e) (n * 10 ^ (top - places)) := by
  have hround := roundsAt_scaleRounded c e (e + digitCount c - 1 - places)
  have hplace : e + (places + 1 : ℕ) - 1 - (e + digitCount c - 1) =
      e - (e + digitCount c - 1 - places) := by
    push_cast
    ring
  have hlt : (c * 10 ^ e : ℚ) < 10 ^ (e + digitCount c - 1 + 1) := by
    have hlt := Int.lt_zpow_succ_log_self (b := 10) (by decide) (c * 10 ^ e : ℚ)
    rwa [log_mul_zpow hc, Nat.cast_ofNat] at hlt
  rw [log_mul_zpow hc, significant, hplace]
  generalize e + digitCount c - 1 = top at *
  split
  · next hcarry =>
    have hten : (10 : ℚ) ≠ 0 := by norm_num
    have hpow : (10 : ℚ) ^ (places + 1) * 10 ^ (top - places) = 10 ^ (top + 1) := by
      rw [← zpow_natCast, ← zpow_add₀ hten]
      congr 1
      push_cast
      ring
    have hpow' : ((10 ^ (places + 1 - 1) : ℕ) : ℚ) * 10 ^ (top + 1 - places) = 10 ^ (top + 1) := by
      rw [Nat.add_sub_cancel, Nat.cast_pow, Nat.cast_ofNat, ← zpow_natCast, ← zpow_add₀ hten]
      congr 1
      ring
    rw [hcarry, Nat.cast_pow, Nat.cast_ofNat] at hround
    refine ⟨_, _, rfl, ?_, ?_⟩
    · rwa [hpow', ← hpow]
    · have hcarried := hround.carried (hlt.trans_eq hpow.symm)
      rwa [hpow', ← hpow, sub_add_eq_add_sub] at *
  · exact ⟨_, _, rfl, hround, hround⟩

/-- The layout with an exponent, rounded to the last place that is shown. -/
theorem exists_shows_scientific (c : ℕ) (e : ℤ) (places : ℕ) (zeroExponent : ℤ) :
    ∃ l, (scientific c e places zeroExponent).Shows l ∧
      RoundsAt (Int.log 10 (c * 10 ^ e : ℚ) - places) (c * 10 ^ e) l.value := by
  by_cases hc : c = 0
  · obtain ⟨l, hl, hcoefficient, hplaces, -⟩ := exists_shows_ofUnits places 0
    refine ⟨{ l with exponent := zeroExponent }, ?_, ?_⟩
    · rw [scientific, if_pos hc]
      exact ⟨hl.whole, hl.fraction, rfl, hl.lt, hl.ne_nil⟩
    · rw [value_units (l := { l with exponent := zeroExponent }) hcoefficient hplaces rfl, hc,
        Nat.cast_zero, zero_mul, zero_mul]
      exact .zero _
  · obtain ⟨n, top, hsignificant, hround, -⟩ := exists_significant hc e places
    obtain ⟨l, hl, hcoefficient, hplaces, -⟩ := exists_shows_ofUnits places n
    refine ⟨{ l with exponent := top }, ?_, ?_⟩
    · simp only [scientific, if_neg hc, hsignificant]
      exact ⟨hl.whole, hl.fraction, rfl, hl.lt, hl.ne_nil⟩
    · rwa [value_units (l := { l with exponent := top }) hcoefficient hplaces rfl]

/-- The power of ten of the first significant digit, as the general layout takes it. -/
theorem exists_shows_fixed_significant (c : ℕ) (e : ℤ) {precision : ℕ} (hprecision : 0 < precision)
    {top : ℤ} (htop : (if c = 0 then 0 else (significant c e precision).2) = top)
    (hlt : top < precision) :
    ∃ l, (fixed c e (precision - 1 - top).toNat).Shows l ∧
      RoundsAt (Int.log 10 (c * 10 ^ e : ℚ) - (precision - 1 : ℕ)) (c * 10 ^ e) l.value := by
  obtain ⟨l, hl, hround, -⟩ := exists_shows_fixed c e (precision - 1 - top).toNat
  refine ⟨l, hl, ?_⟩
  by_cases hc : c = 0
  · have hzero : (c * 10 ^ e : ℚ) = 0 := by rw [hc, Nat.cast_zero, zero_mul]
    rw [hround.eq_self (k := 0) (by rw [hzero, Nat.cast_zero, zero_mul]), hzero]
    exact .zero _
  · obtain ⟨n, top', hsignificant, hround', hcarried⟩ := exists_significant hc e (precision - 1)
    rw [Nat.sub_add_cancel hprecision] at hsignificant
    rw [if_neg hc, hsignificant] at htop
    subst htop
    have hplace : -((precision - 1 - top').toNat : ℤ) = top' - (precision - 1 : ℕ) := by
      rw [Int.toNat_of_nonneg (by omega)]
      omega
    rw [hplace] at hround
    rwa [hround.unique hcarried]

/-- The general layout, rounded to the last of the significant digits. -/
theorem exists_shows_general (c : ℕ) (e : ℤ) {precision : ℕ} (hprecision : 0 < precision)
    (keepZeros : Bool) : ∃ l, (general c e precision keepZeros).Shows l ∧
      RoundsAt (Int.log 10 (c * 10 ^ e : ℚ) - (precision - 1 : ℕ)) (c * 10 ^ e) l.value := by
  unfold general
  generalize htop : (if c = 0 then 0 else (significant c e precision).2) = top
  have hfigures : ∃ l, (if -4 ≤ top ∧ top < precision then fixed c e (precision - 1 - top).toNat
        else scientific c e (precision - 1) 0).Shows l ∧
      RoundsAt (Int.log 10 (c * 10 ^ e : ℚ) - (precision - 1 : ℕ)) (c * 10 ^ e) l.value := by
    split
    · next hrange => exact exists_shows_fixed_significant c e hprecision htop hrange.2
    · exact exists_shows_scientific c e (precision - 1) 0
  obtain ⟨l, hl, hround⟩ := hfigures
  cases keepZeros with
  | true => exact ⟨l, hl, hround⟩
  | false =>
    obtain ⟨l', hl', hvalue, -⟩ := hl.trimmed
    exact ⟨l', hl', hvalue ▸ hround⟩

/-! ## Figures written out -/

/-- A change of letters that figures can be written with: it concerns the mark of the exponent
only. -/
structure KeepsFigures (g : Char → Char) : Prop where
  digits : ∀ d < 10, g (Nat.digitChar d) = Nat.digitChar d
  point : g '.' = '.'
  plus : g '+' = '+'
  minus : g '-' = '-'
  mark : g 'e' = 'e' ∨ g 'e' = 'E'

theorem keepsFigures_id : KeepsFigures id := ⟨fun _ _ => rfl, rfl, rfl, rfl, .inl rfl⟩

theorem keepsFigures_toUpper : KeepsFigures Char.toUpper := by
  refine ⟨by decide, by decide, by decide, by decide, .inr (by decide)⟩

theorem KeepsFigures.map_digits {g : Char → Char} (hg : KeepsFigures g) {ds : List ℕ}
    (h : ∀ d ∈ ds, d < 10) : (ds.map Nat.digitChar).map g = ds.map Nat.digitChar := by
  rw [List.map_map]
  exact List.map_congr_left fun d hd => hg.digits d (h d hd)

section

variable {s : Styles}

/-- An exponent is written with its sign. -/
theorem writesExponent_exponentChars {g : Char → Char} (hg : KeepsFigures g) (hs : s.exponent)
    (x : ℤ) :
    DecimalLiteral.WritesExponent s x (((exponentChars x).map g).map CodePoint.ofChar) := by
  obtain ⟨ds, hdigits, hlt, hvalue, hlength⟩ := exists_zeroPadded 2 x.natAbs
  have hne : ds ≠ [] := List.ne_nil_of_length_pos (by omega)
  have hread := map_digit?_digitChar hlt
  have hmark : CodePoint.ofChar (g 'e') = CodePoint.ofChar 'e' ∨
      CodePoint.ofChar (g 'e') = CodePoint.ofChar 'E' :=
    hg.mark.imp (congrArg CodePoint.ofChar) (congrArg CodePoint.ofChar)
  rw [exponentChars, hdigits, List.map_cons, List.map_cons, List.map_cons, hg.map_digits hlt]
  by_cases hx : x < 0
  · have hself : x = if true then -(digitsValue 10 ds : ℤ) else digitsValue 10 ds := by
      rw [if_pos rfl, hvalue]
      omega
    rw [if_pos hx, hg.minus]
    nth_rewrite 1 [hself]
    exact .some hs hmark .minus hne hread
  · have hself : x = if false then -(digitsValue 10 ds : ℤ) else digitsValue 10 ds := by
      rw [if_neg Bool.false_ne_true, hvalue]
      omega
    rw [if_neg hx, hg.plus]
    nth_rewrite 1 [hself]
    exact .some hs hmark .plus hne hread

/-- **Figures written out are their literal**, in letters of any case. -/
theorem Shows.isWritten_map {g : Char → Char} (hg : KeepsFigures g) (h : f.Shows l)
    (hpoint : s.decimalPoint) (hexponent : s.exponent) (keepPoint : Bool) :
    l.IsWritten s (((f.chars keepPoint).map g).map CodePoint.ofChar) := by
  obtain ⟨hwholeLt, hfractionLt⟩ := List.forall_mem_append.1 h.lt
  have hwhole : DecimalLiteral.WritesWhole s l.whole ((f.whole.map g).map CodePoint.ofChar) := by
    rw [h.whole, hg.map_digits hwholeLt]
    exact .digits h.ne_nil (map_digit?_digitChar hwholeLt)
  refine ⟨((f.whole ++ (if f.fraction = [] ∧ ¬keepPoint then [] else '.' :: f.fraction)).map g).map
    CodePoint.ofChar, _, by rw [chars, List.map_append, List.map_append], ?_, ?_⟩
  · rw [List.map_append, List.map_append]
    split
    · next hnone =>
      have hfraction : l.fraction = [] := List.map_eq_nil_iff.1 (h.fraction.symm.trans hnone.1)
      rw [hfraction, List.map_nil, List.map_nil, List.append_nil]
      exact .whole hwhole
    · rw [List.map_cons, hg.point]
      refine .point hpoint hwhole ?_
      rw [h.fraction, hg.map_digits hfractionLt]
      exact map_digit?_digitChar hfractionLt
  · have hvalue := h.exponent
    split
    · next hnone =>
      rw [hnone] at hvalue
      rw [← hvalue]
      exact .none
    · next x hsome =>
      rw [hsome] at hvalue
      rw [← hvalue]
      exact writesExponent_exponentChars hg hexponent x

theorem Shows.isWritten (h : f.Shows l) (hpoint : s.decimalPoint) (hexponent : s.exponent)
    (keepPoint : Bool) : l.IsWritten s ((f.chars keepPoint).map CodePoint.ofChar) := by
  have hwritten := h.isWritten_map keepsFigures_id hpoint hexponent keepPoint
  rwa [List.map_id] at hwritten

end

end Figures

/-! ## Texts of magnitudes -/

/-- The text of a decimal number is a literal of it. -/
theorem Double.exists_isWritten_layout {s : Styles} (hpoint : s.decimalPoint)
    (hexponent : s.exponent) (isPlain : Bool) {c : ℕ} (hc : c ≠ 0) (e : ℤ) :
    ∃ l : DecimalLiteral, l.IsWritten s ((layout isPlain c e).map CodePoint.ofChar) ∧
      l.value = c * 10 ^ e := by
  cases isPlain with
  | false =>
    obtain ⟨l, hl, hround⟩ := Figures.exists_shows_scientific c e (digitCount c - 1) 0
    have hpos := digitCount_pos c
    have hplace : Int.log 10 (c * 10 ^ e : ℚ) - (digitCount c - 1 : ℕ) = e := by
      rw [log_mul_zpow hc]
      omega
    rw [hplace] at hround
    obtain ⟨l', hl', hvalue', -⟩ := hl.trimmed
    exact ⟨l', hl'.isWritten hpoint hexponent false, hvalue'.trans (hround.eq_self rfl)⟩
  | true =>
    obtain ⟨l, hl, hvalue⟩ := Figures.exists_shows_plain c e
    obtain ⟨l', hl', hvalue', -⟩ := hl.trimmed
    simp only [layout, ↓reduceIte]
    split
    · next hnone =>
      -- one place is added, which is zero
      have hfraction : l'.fraction = [] := List.map_eq_nil_iff.1 (hl'.fraction.symm.trans hnone)
      have hplace : Figures.Shows { (Figures.plain c e).trimmed with fraction := ['0'] }
          { l' with fraction := [0] } := by
        refine ⟨hl'.whole, rfl, hl'.exponent, ?_, hl'.ne_nil⟩
        have hlt := hl'.lt
        rw [hfraction, List.append_nil] at hlt
        exact List.forall_mem_append.2 ⟨hlt, by simp⟩
      have hchars : Figures.chars { (Figures.plain c e).trimmed with fraction := ['0'] } false =
          (Figures.plain c e).trimmed.whole ++ ['.', '0'] := by
        have hnone : (Figures.plain c e).trimmed.exponent = none := rfl
        simp [Figures.chars, hnone]
      refine ⟨_, hchars ▸ hplace.isWritten hpoint hexponent false, ?_⟩
      calc DecimalLiteral.value { l' with fraction := [0] }
          = DecimalLiteral.value { l' with fraction := [] } :=
            Figures.value_zeros l'.whole [] l'.exponent 1
        _ = l'.value := by rw [← hfraction]
        _ = c * 10 ^ e := hvalue'.trans hvalue
    · exact ⟨l', hl'.isWritten hpoint hexponent false, hvalue'.trans hvalue⟩

end UnitText
