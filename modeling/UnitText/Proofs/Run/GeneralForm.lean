import UnitText.Proofs.Run.Decimals

/-!
# The general form

The general form of a conversion shows a number with so many significant digits as the precision
asks for. The place of the first digit of the rounded number decides between the layouts: without an
exponent if it is from `-4` on and below the precision, and with one otherwise. Rounding may carry
into one more place, and this is the place that counts, both for the choice and for the digits that
are shown.

## Main definitions

- `DecimalLiteral.mantissa` — the digits and the point of a literal
- `IsGeneral` — the texts of a number in the general form
- `Figures.LaysOut` — figures that are laid out by the place of the first digit

## Main statements

- `Figures.exists_log_eq_significant` — the place of the first significant digit is that of the
  rounded number
- `Figures.exists_isGeneral` — the general layout is the general form of the rounded number
- `Field.finiteDecimal_general` — what a conversion in the general form writes of a decimal number
-/

namespace UnitText

/-! ## Digits that count -/

/-- The digits of a number are those from the first on that is not zero. -/
theorem length_dropWhile_zero {ds : List ℕ} (hlt : ∀ d ∈ ds, d < 10) (hne : digitsValue 10 ds ≠ 0) :
    (ds.dropWhile (· == 0)).length = digitCount (digitsValue 10 ds) := by
  induction ds with
  | nil => exact absurd rfl hne
  | cons d ds ih =>
    by_cases hzero : d = 0
    · subst hzero
      have hvalue : digitsValue 10 (0 :: ds) = digitsValue 10 ds := digitsValue_zeros 10 1 ds
      rw [hvalue] at hne ⊢
      exact ih (List.forall_mem_cons.1 hlt).2 hne
    · have hvalue : digitsValue 10 (d :: ds) = d * 10 ^ ds.length + digitsValue 10 ds := by
        rw [← List.singleton_append, digitsValue_append]
        simp [digitsValue]
      have hle : 10 ^ ds.length ≤ digitsValue 10 (d :: ds) := by
        rw [hvalue]
        exact le_add_right (Nat.le_mul_of_pos_left _ (Nat.pos_of_ne_zero hzero))
      have hmore := lt_digitCount hle
      have hless := digitCount_le (Nat.succ_pos _) (digitsValue_lt hlt)
      rw [List.dropWhile_cons_of_neg (by simpa using hzero)]
      exact le_antisymm hmore hless

namespace DecimalLiteral

variable {l : DecimalLiteral}

/-- The digits and the point of a literal. A point without digits after it is written only on
demand. -/
def mantissa (l : DecimalLiteral) (keepPoint : Bool) : List Char :=
  l.whole.map Nat.digitChar ++
    if l.fraction = [] ∧ ¬keepPoint then [] else '.' :: l.fraction.map Nat.digitChar

theorem value_eq_zero_iff : l.value = 0 ↔ l.coefficient = 0 := by
  rw [value_eq, decimal_eq_zero_iff]

/-- A number has as many digits as there are places from its first one to the last place. -/
theorem digitCount_coefficient (h : l.value ≠ 0) :
    (digitCount l.coefficient : ℤ) = Int.log 10 l.value - l.power + 1 := by
  rw [value_eq, log_mul_zpow (mt value_eq_zero_iff.2 h)]
  omega

end DecimalLiteral

/-- The text `body` is the literal `l`, and it is the number `y` in the general form, for so many
significant digits. Zeros at the end of the fraction, and a point without digits after it, are kept
only on demand. -/
structure IsGeneral (precision : ℕ) (keepZeros : Bool) (y : ℚ) (l : DecimalLiteral)
    (body : List Char) : Prop where
  isWritten : l.IsWritten .any (Field.points body)
  value_eq : l.value = y
  /-- Numbers that are neither small nor large have no exponent. -/
  fixed : -4 ≤ Int.log 10 y → Int.log 10 y < precision →
    l.whole.length = (Int.log 10 y).toNat + 1 ∧ body = l.mantissa keepZeros
  /-- All others have one, of at least two digits, and one digit before the point. -/
  scientific : ¬(-4 ≤ Int.log 10 y ∧ Int.log 10 y < precision) → l.whole.length = 1 ∧
    ∃ ds : List ℕ, 2 ≤ ds.length ∧ (∀ d ∈ ds, d < 10) ∧
      digitsValue 10 ds = (Int.log 10 y).natAbs ∧
      body = l.mantissa keepZeros ++
        'e' :: (if Int.log 10 y < 0 then '-' else '+') :: ds.map Nat.digitChar
  significant : keepZeros → y ≠ 0 →
    ((l.whole ++ l.fraction).dropWhile (· == 0)).length = precision
  zero : keepZeros → y = 0 → l.whole = [0] ∧ l.fraction = List.replicate (precision - 1) 0
  trimmed : ¬keepZeros → l.fraction.getLast? ≠ some 0

namespace Figures

variable {f : Figures} {l : DecimalLiteral} {c : ℕ} {e : ℤ}

/-! ## The significant digits -/

/-- A number that is scaled to have so many digits before the point is rounded to so many digits, or
to the least number that has one more. -/
theorem scaleRounded_bounds (hc : c ≠ 0) (places : ℕ) :
    10 ^ places ≤ scaleRounded c (places + 1 - digitCount c) ∧
      scaleRounded c (places + 1 - digitCount c) ≤ 10 ^ (places + 1) := by
  have hround := isRounded_scaleRounded c (places + 1 - digitCount c)
  have hpos := digitCount_pos c
  have hunit : (0 : ℚ) < 10 ^ (places + 1 - digitCount c : ℤ) := zpow_pos (by norm_num) _
  have hscaled : ∀ {j k : ℕ}, j + (places + 1 - digitCount c : ℤ) = k →
      ((10 ^ j : ℕ) : ℚ) * 10 ^ (places + 1 - digitCount c : ℤ) = ((10 ^ k : ℕ) : ℚ) := by
    intro j k hk
    rw [Nat.cast_pow, Nat.cast_pow, Nat.cast_ofNat, ← zpow_natCast, ← zpow_natCast,
      ← zpow_add₀ (by norm_num), hk]
  constructor
  · refine hround.le_of_natCast_le ?_
    calc ((10 ^ places : ℕ) : ℚ)
        = ((10 ^ (digitCount c - 1) : ℕ) : ℚ) * 10 ^ (places + 1 - digitCount c : ℤ) :=
          (hscaled (by omega)).symm
      _ ≤ c * 10 ^ (places + 1 - digitCount c : ℤ) :=
          mul_le_mul_of_nonneg_right (by exact_mod_cast pow_le_of_digitCount hc) hunit.le
  · refine hround.le_of_le_natCast ?_
    calc (c : ℚ) * 10 ^ (places + 1 - digitCount c : ℤ)
        ≤ ((10 ^ digitCount c : ℕ) : ℚ) * 10 ^ (places + 1 - digitCount c : ℤ) :=
          mul_le_mul_of_nonneg_right (by exact_mod_cast (lt_pow_digitCount c).le) hunit.le
      _ = ((10 ^ (places + 1) : ℕ) : ℚ) := hscaled (by omega)

/-- The significant digits are as many as are asked for, also after a carry. -/
theorem significant_bounds (hc : c ≠ 0) (e : ℤ) (places : ℕ) :
    10 ^ places ≤ (significant c e (places + 1)).1 ∧
      (significant c e (places + 1)).1 < 10 ^ (places + 1) := by
  obtain ⟨hle, hlt⟩ := scaleRounded_bounds hc places
  have hplace : e + (places + 1 : ℕ) - 1 - (e + digitCount c - 1) =
      places + 1 - digitCount c := by
    push_cast
    ring
  simp only [significant, hplace]
  split
  · exact ⟨le_rfl, Nat.pow_lt_pow_right (by decide) (Nat.lt_succ_self _)⟩
  · next hkept => exact ⟨hle, lt_of_le_of_ne hlt hkept⟩

theorem digitCount_significant (hc : c ≠ 0) (e : ℤ) (places : ℕ) :
    digitCount (significant c e (places + 1)).1 = places + 1 := by
  obtain ⟨hle, hlt⟩ := significant_bounds hc e places
  exact le_antisymm (digitCount_le (Nat.succ_pos _) hlt) (lt_digitCount hle)

/-- **A carry is seen twice alike**: the place of the first significant digit is that of the number
rounded to them. -/
theorem exists_log_eq_significant (c : ℕ) (e : ℤ) {precision : ℕ} (hprecision : 0 < precision) :
    ∃ y : ℚ, RoundsAt (Int.log 10 (c * 10 ^ e : ℚ) - (precision - 1 : ℕ)) (c * 10 ^ e) y ∧
      (y = 0 ↔ c = 0) ∧
      (if c = 0 then 0 else (significant c e precision).2) = Int.log 10 y := by
  obtain ⟨places, rfl⟩ := Nat.exists_eq_add_of_le' hprecision
  rw [Nat.add_sub_cancel]
  by_cases hc : c = 0
  · have hzero : (c * 10 ^ e : ℚ) = 0 := by rw [hc, Nat.cast_zero, zero_mul]
    rw [hzero, if_pos hc]
    exact ⟨0, .zero _, by simp [hc], (Int.log_zero_right 10).symm⟩
  · obtain ⟨n, top, hsignificant, hround, -⟩ := exists_significant hc e places
    have hbounds := significant_bounds hc e places
    have hcount := digitCount_significant hc e places
    rw [hsignificant] at hbounds hcount ⊢
    have hn : n ≠ 0 := by
      have hpos : 0 < 10 ^ places := by positivity
      exact (hpos.trans_le hbounds.1).ne'
    refine ⟨_, hround, ?_, ?_⟩
    · exact iff_of_false (mt decimal_eq_zero_iff.1 hn) hc
    · rw [if_neg hc, log_mul_zpow hn, hcount]
      push_cast
      ring

/-! ## The layout -/

/-- The digits of a number, written out, are those of one literal only. -/
theorem Shows.unique {l' : DecimalLiteral} (h : f.Shows l) (h' : f.Shows l') : l = l' := by
  have hdigits : ∀ {ds es : List ℕ}, (∀ d ∈ ds, d < 10) → (∀ d ∈ es, d < 10) →
      ds.map Nat.digitChar = es.map Nat.digitChar → ds = es := by
    intro ds es hds hes heq
    refine List.map_injective_iff.2 (Option.some_injective _) ?_
    rw [← map_digit?_digitChar hds, ← map_digit?_digitChar hes, heq]
  obtain ⟨hwhole, hfraction⟩ := List.forall_mem_append.1 h.lt
  obtain ⟨hwhole', hfraction'⟩ := List.forall_mem_append.1 h'.lt
  obtain ⟨whole, fraction, exponent⟩ := l
  obtain ⟨whole', fraction', exponent'⟩ := l'
  obtain rfl := hdigits hwhole hwhole' (h.whole.symm.trans h'.whole)
  obtain rfl := hdigits hfraction hfraction' (h.fraction.symm.trans h'.fraction)
  obtain rfl : exponent = exponent' := h.exponent.symm.trans h'.exponent
  rfl

theorem length_whole_ofUnits (places n : ℕ) :
    (ofUnits places n).whole.length = max (places + 1) (digitCount n) - places := by
  have hlength : (zeroPadded (places + 1) (decimalDigits n)).length =
      max (places + 1) (digitCount n) := by
    rw [zeroPadded, List.length_leftpad, decimalDigits, String.length_toList, digitCount]
  simp only [ofUnits, List.length_take, hlength]
  omega

/-- The figures are those of the number `y`, laid out by the place of its first digit. -/
structure LaysOut (f : Figures) (precision : ℕ) (y : ℚ) (l : DecimalLiteral) : Prop where
  shows : f.Shows l
  value_eq : l.value = y
  exponent : f.exponent =
    if -4 ≤ Int.log 10 y ∧ Int.log 10 y < precision then none else some (Int.log 10 y)
  length_whole : l.whole.length =
    if -4 ≤ Int.log 10 y ∧ Int.log 10 y < precision then (Int.log 10 y).toNat + 1 else 1

theorem exists_laysOut_fixed {precision : ℕ} {y : ℚ} (hprecision : 0 < precision)
    (hround : RoundsAt (Int.log 10 (c * 10 ^ e : ℚ) - (precision - 1 : ℕ)) (c * 10 ^ e) y)
    (htop : (if c = 0 then 0 else (significant c e precision).2) = Int.log 10 y)
    (hrange : -4 ≤ Int.log 10 y ∧ Int.log 10 y < precision) :
    ∃ l, (fixed c e (precision - 1 - Int.log 10 y).toNat).LaysOut precision y l ∧
      l.power = Int.log 10 y - (precision - 1 : ℕ) := by
  obtain ⟨l, hl, hvalue⟩ := exists_shows_fixed_significant c e hprecision htop hrange.2
  obtain ⟨l', hl', hcoefficient, hplaces, hexponent⟩ := exists_shows_ofUnits
    (precision - 1 - Int.log 10 y).toNat
    (scaleRounded c (e + (precision - 1 - Int.log 10 y).toNat))
  obtain rfl := hl.unique hl'
  have hself : l.value = y := hvalue.unique hround
  have hpower : l.power = Int.log 10 y - (precision - 1 : ℕ) := by
    rw [DecimalLiteral.power, hplaces, hexponent]
    omega
  refine ⟨l, ⟨hl, hself, (if_pos hrange).symm, ?_⟩, hpower⟩
  -- how many digits there are in all follows from the number and from its last place
  have hlength := length_whole_ofUnits (precision - 1 - Int.log 10 y).toNat l.coefficient
  rw [hcoefficient, ← fixed, hl.whole, List.length_map, ← hcoefficient] at hlength
  rw [hlength, if_pos hrange]
  by_cases hy : y = 0
  · have hzero : l.coefficient = 0 := DecimalLiteral.value_eq_zero_iff.1 (hself.trans hy)
    have hone : digitCount 0 = 1 := rfl
    rw [hzero, hone, hy, Int.log_zero_right]
    omega
  · have hcount := DecimalLiteral.digitCount_coefficient (hself.trans_ne hy)
    rw [hself, hpower] at hcount
    omega

theorem exists_laysOut_scientific {precision : ℕ} {y : ℚ} (hprecision : 0 < precision) (hc : c ≠ 0)
    (hround : RoundsAt (Int.log 10 (c * 10 ^ e : ℚ) - (precision - 1 : ℕ)) (c * 10 ^ e) y)
    (htop : (significant c e precision).2 = Int.log 10 y)
    (hrange : ¬(-4 ≤ Int.log 10 y ∧ Int.log 10 y < precision)) :
    ∃ l, (scientific c e (precision - 1) 0).LaysOut precision y l ∧
      l.power = Int.log 10 y - (precision - 1 : ℕ) := by
  obtain ⟨l, hl, hvalue⟩ := exists_shows_scientific c e (precision - 1) 0
  obtain ⟨places, rfl⟩ := Nat.exists_eq_add_of_le' hprecision
  have hscientific : scientific c e places 0 =
      { ofUnits places (significant c e (places + 1)).1 with
        exponent := some (significant c e (places + 1)).2 } := by rw [scientific, if_neg hc]
  rw [Nat.add_sub_cancel] at *
  obtain ⟨l', hl', -, hplaces, -⟩ := exists_shows_ofUnits places (significant c e (places + 1)).1
  have hexponent : l.exponent = Int.log 10 y := by
    rw [← hl.exponent, hscientific, ← htop]
    rfl
  have hwhole : l.whole.length = 1 := by
    rw [← List.length_map (f := Nat.digitChar), ← hl.whole, hscientific, length_whole_ofUnits,
      digitCount_significant hc]
    omega
  have hfraction : l.fraction.length = places := by
    have hmap := hl.fraction
    rw [hscientific, hl'.fraction] at hmap
    have hlength := congrArg List.length hmap
    rwa [List.length_map, List.length_map, hplaces, eq_comm] at hlength
  refine ⟨l, ⟨hl, hvalue.unique hround, ?_, ?_⟩, ?_⟩
  · rw [if_neg hrange, hscientific, htop]
  · rw [if_neg hrange, hwhole]
  · rw [DecimalLiteral.power, hexponent, hfraction]

/-- The general layout with all its zeros ends at the last of the significant digits. -/
theorem exists_laysOut_general (c : ℕ) (e : ℤ) {precision : ℕ} (hprecision : 0 < precision) :
    ∃ (y : ℚ) (l : DecimalLiteral),
      RoundsAt (Int.log 10 (c * 10 ^ e : ℚ) - (precision - 1 : ℕ)) (c * 10 ^ e) y ∧
      (y = 0 ↔ c = 0) ∧ (general c e precision true).LaysOut precision y l ∧
      l.power = Int.log 10 y - (precision - 1 : ℕ) := by
  obtain ⟨y, hround, hzero, htop⟩ := exists_log_eq_significant c e hprecision
  have hgeneral : general c e precision true =
      if -4 ≤ Int.log 10 y ∧ Int.log 10 y < precision then
        fixed c e (precision - 1 - Int.log 10 y).toNat
      else scientific c e (precision - 1) 0 := by
    simp only [general, htop, ↓reduceIte]
  rw [hgeneral]
  split
  · next hrange =>
    obtain ⟨l, hl⟩ := exists_laysOut_fixed hprecision hround htop hrange
    exact ⟨y, l, hround, hzero, hl⟩
  · next hrange =>
    have hc : c ≠ 0 := by
      rintro rfl
      rw [hzero.2 rfl, Int.log_zero_right] at hrange
      omega
    rw [if_neg hc] at htop
    obtain ⟨l, hl⟩ := exists_laysOut_scientific hprecision hc hround htop hrange
    exact ⟨y, l, hround, hzero, hl⟩

/-- Without the zeros that end the fraction the same number is laid out, and no zero ends it. -/
theorem LaysOut.trimmed {precision : ℕ} {y : ℚ} (h : f.LaysOut precision y l) :
    ∃ l', f.trimmed.LaysOut precision y l' ∧ l'.fraction.getLast? ≠ some 0 := by
  obtain ⟨l', hl', hvalue, hlast⟩ := h.shows.trimmed
  have hwhole : l'.whole.length = l.whole.length := by
    have hlength := congrArg List.length (hl'.whole.symm.trans h.shows.whole)
    rwa [List.length_map, List.length_map] at hlength
  exact ⟨l', ⟨hl', hvalue.trans h.value_eq, h.exponent, hwhole.trans h.length_whole⟩, hlast⟩

/-! ## The text -/

theorem Shows.chars_eq (h : f.Shows l) (keepPoint : Bool) :
    f.chars keepPoint = l.mantissa keepPoint ++ (f.exponent.map exponentChars).getD [] := by
  rw [chars, DecimalLiteral.mantissa, h.whole, h.fraction]
  simp only [List.map_eq_nil_iff]
  cases f.exponent <;> rfl

/-- What is laid out for a number is written in the general form, as soon as the digits that are
kept or dropped are the right ones. -/
theorem LaysOut.isGeneral {precision : ℕ} {y : ℚ} (h : f.LaysOut precision y l) {keepZeros : Bool}
    (hsignificant : keepZeros → y ≠ 0 →
      ((l.whole ++ l.fraction).dropWhile (· == 0)).length = precision)
    (hzero : keepZeros → y = 0 → l.whole = [0] ∧ l.fraction = List.replicate (precision - 1) 0)
    (htrimmed : ¬keepZeros → l.fraction.getLast? ≠ some 0) :
    IsGeneral precision keepZeros y l (f.chars keepZeros) where
  isWritten := h.shows.isWritten rfl rfl keepZeros
  value_eq := h.value_eq
  fixed := by
    intro hleast hlt
    rw [h.shows.chars_eq, h.exponent, h.length_whole, if_pos ⟨hleast, hlt⟩, if_pos ⟨hleast, hlt⟩]
    exact ⟨rfl, List.append_nil _⟩
  scientific := by
    intro hrange
    obtain ⟨ds, hdigits, hlt, hvalue, hlength⟩ := exists_zeroPadded 2 (Int.log 10 y).natAbs
    rw [h.shows.chars_eq, h.exponent, h.length_whole, if_neg hrange, if_neg hrange]
    refine ⟨rfl, ds, hlength, hlt, hvalue, ?_⟩
    rw [← hdigits]
    rfl
  significant := hsignificant
  zero := hzero
  trimmed := htrimmed

/-- **The general layout is the general form** of the number rounded to the significant digits. -/
theorem exists_isGeneral (c : ℕ) (e : ℤ) {precision : ℕ} (hprecision : 0 < precision)
    (keepZeros : Bool) : ∃ (y : ℚ) (l : DecimalLiteral),
      RoundsAt (Int.log 10 (c * 10 ^ e : ℚ) - (precision - 1 : ℕ)) (c * 10 ^ e) y ∧
      (y = 0 ↔ c = 0) ∧
      IsGeneral precision keepZeros y l ((general c e precision keepZeros).chars keepZeros) := by
  obtain ⟨y, l, hround, hzero, hl, hpower⟩ := exists_laysOut_general c e hprecision
  cases keepZeros with
  | false =>
    obtain ⟨l', hl', hlast⟩ := hl.trimmed
    have hgeneral : general c e precision false = (general c e precision true).trimmed := by
      simp only [general, ↓reduceIte, Bool.false_eq_true]
    rw [hgeneral]
    have hfalse : ∀ {P : Prop}, false = true → P := fun h => absurd h Bool.false_ne_true
    exact ⟨y, l', hround, hzero, hl'.isGeneral hfalse hfalse fun _ => hlast⟩
  | true =>
    refine ⟨y, l, hround, hzero, hl.isGeneral (fun _ hy => ?_) (fun _ hy => ?_) (by simp)⟩
    · have hvalue : l.value ≠ 0 := hl.value_eq.trans_ne hy
      have hcount := DecimalLiteral.digitCount_coefficient hvalue
      rw [hl.value_eq, hpower] at hcount
      rw [length_dropWhile_zero hl.shows.lt (mt DecimalLiteral.value_eq_zero_iff.2 hvalue)]
      rw [DecimalLiteral.coefficient] at hcount
      omega
    · -- all digits are zeros, and how many there are the layout says
      have hcoefficient := DecimalLiteral.value_eq_zero_iff.1 (hl.value_eq.trans hy)
      obtain ⟨hwhole, hfraction⟩ := List.forall_mem_append.1
        (eq_zero_of_digitsValue (by decide) hcoefficient)
      have hrange : -4 ≤ Int.log 10 y ∧ Int.log 10 y < precision := by
        rw [hy, Int.log_zero_right]
        omega
      have hlength := hl.length_whole
      have hexponent := hl.shows.exponent
      rw [if_pos hrange] at hlength
      rw [hl.exponent, if_pos hrange, Option.getD_none] at hexponent
      rw [DecimalLiteral.power, ← hexponent] at hpower
      rw [hy, Int.log_zero_right] at hlength hpower
      refine ⟨List.eq_replicate_iff.2 ⟨hlength, hwhole⟩,
        List.eq_replicate_iff.2 ⟨by omega, hfraction⟩⟩

end Figures

namespace Field

/-- **A decimal number in the general form.** With the precision `p`, of which zero counts as one, a
finite decimal number is rounded once, half to even, to `p` significant digits. The text of its size
is the rounded number in the general form: the place of the first digit of the rounded number, which
is that of the number itself or one more after a carry, decides whether there is an exponent. In the
alternate form all `p` digits are shown, and a point; otherwise no zero ends the fraction, and no
point stands without digits. -/
theorem finiteDecimal_general (f : Field) {p : ℕ} (hp : f.precision.getD defaultPrecision = p)
    (hplaces : FloatForm.general.places p ≤ Decimal.maxExponent) (negative : Bool) (c : ℕ) (e : ℤ) :
    ∃ (y : ℚ) (l : DecimalLiteral) (body : List Char),
      RoundsAt (Int.log 10 (c * 10 ^ e : ℚ) - (max p 1 - 1 : ℕ)) (c * 10 ^ e) y ∧
      (y = 0 ↔ c = 0) ∧ IsGeneral (max p 1) f.flags.alternate y l body ∧
      f.finiteDecimal .general negative c e = f.padFinite negative [] body := by
  obtain ⟨y, l, hround, hzero, hl⟩ :=
    Figures.exists_isGeneral c e (Nat.lt_of_lt_of_le Nat.one_pos (le_max_right p 1))
      f.flags.alternate
  exact ⟨y, l, _, hround, hzero, hl, finiteDecimal_eq_padFinite hp hplaces negative c e⟩

/-- A carry goes through all digits, and leaves a number with one more place and no fraction. -/
theorem finiteDecimal_general_carry :
    let f : Field := create { kind := .float .general false } none none .wide32 0
    ∃ (l : DecimalLiteral) (body : List Char), IsGeneral 6 false 10 l body ∧
      l.whole.length = 2 ∧ body = l.mantissa false ∧
      f.finiteDecimal .general false 99999995 (-7) = f.padFinite false [] body := by
  intro f
  obtain ⟨y, l, body, hround, -, hl, hfinite⟩ :=
    f.finiteDecimal_general (p := 6) rfl (by decide) false 99999995 (-7)
  have hplace : Int.log 10 ((99999995 : ℕ) * 10 ^ (-7 : ℤ) : ℚ) = 0 := by
    rw [log_mul_zpow (by decide)]
    decide +kernel
  have hten : RoundsAt (0 - (max 6 1 - 1 : ℕ)) ((99999995 : ℕ) * 10 ^ (-7 : ℤ) : ℚ) 10 := by
    refine ⟨1000000, .of_abs_lt ?_, ?_⟩ <;> norm_num [abs]
  rw [hplace] at hround
  obtain rfl := hround.unique hten
  have hlog : Int.log 10 (10 : ℚ) = 1 := log_eq (by decide) (by norm_num) (by norm_num)
  obtain ⟨hwhole, hbody⟩ := hl.fixed (by rw [hlog]; decide) (by rw [hlog]; decide)
  rw [hlog] at hwhole
  exact ⟨l, body, hl, hwhole, hbody, hfinite⟩

end Field

end UnitText
