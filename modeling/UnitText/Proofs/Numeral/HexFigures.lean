import UnitText.Number.HexFigures
import UnitText.Numeral.Literal
import UnitText.Proofs.Number.Double
import UnitText.Proofs.Numeral.Digits

/-!
# Hexadecimal figures as literals

The hexadecimal figures of a floating-point number are read again as a literal: hexadecimal digits
with a point, times a power of two. The literal is the number itself if no places are asked for, or
at least as many as a fraction has; with fewer places it is rounded to the last of them, half to
even. A carry may make the digit before the point a two.

## Main definitions

- `HexLiteral` — hexadecimal literals, with the number that they are
- `HexLiteral.read?` — the literal that a text is
- `HexLiteral.Shows` — a literal shows a number with some places

## Main statements

- `HexLiteral.read?_chars` — a literal that is written out is read again
- `Double.exists_hexDigits` — the digits of a number are those of a literal that shows it
- `Double.hexFigures_read` — what is written of a number is such a literal
-/

namespace UnitText

/-- Hexadecimal digits before and after a point, and the exponent of a power of two. -/
structure HexLiteral where
  whole : List ℕ
  fraction : List ℕ
  exponent : ℤ
deriving DecidableEq

namespace HexLiteral

variable {l : HexLiteral}

/-- All digits as one number. -/
def coefficient (l : HexLiteral) : ℕ := digitsValue 16 (l.whole ++ l.fraction)

/-- The number that a literal is. -/
def value (l : HexLiteral) : ℚ := l.coefficient / 16 ^ l.fraction.length * 2 ^ l.exponent

/-! ## Reading -/

/-- The digits behind the point, if there is one, and the text behind them. -/
def readFraction : Chars → List ℕ × Chars
  | point :: rest => if point = '.' then radixRun 16 rest else ([], point :: rest)
  | [] => ([], [])

/-- The exponent that a text is: a mark, a sign and decimal digits. -/
def readExponent? : Chars → Option ℤ
  | mark :: rest =>
    let (negative, digitsAt) := DecimalLiteral.scanSign rest
    let (digits, behind) := digitRun digitsAt
    if mark = 'p' ∧ digits ≠ [] ∧ behind = [] then
      some (if negative then -digitsValue 10 digits else digitsValue 10 digits)
    else
      none
  | [] => none

/-- The literal that a text is. -/
def read? (cs : Chars) : Option HexLiteral :=
  let (whole, rest) := radixRun 16 cs
  let (fraction, rest) := readFraction rest
  if whole = [] then none
  else (readExponent? rest).map fun exponent => { whole, fraction, exponent }

theorem map_radixDigit?_digitChar {ds : List ℕ} (h : ∀ d ∈ ds, d < 16) :
    ((ds.map Nat.digitChar).map CodePoint.ofChar).map (radixDigit? 16) = ds.map some := by
  rw [List.map_map, List.map_map]
  exact List.map_congr_left fun d hd => radixDigit?_digitChar le_rfl (h d hd) (.inl rfl)

/-- An exponent is written with its sign. -/
theorem readExponent?_chars (e : ℤ) :
    readExponent? (('p' :: (if e < 0 then '-' else '+') :: decimalDigits e.natAbs).map
      CodePoint.ofChar) = some e := by
  obtain ⟨ds, hds, hdigits⟩ := exists_radixDigits (by decide : 1 < 10) e.natAbs
  have hdecimal : decimalDigits e.natAbs = ds.map Nat.digitChar :=
    (decimalDigits_eq _).trans hdigits
  have hrun : digitRun ((ds.map Nat.digitChar).map CodePoint.ofChar) = (ds, []) := by
    have hmap : ((ds.map Nat.digitChar).map CodePoint.ofChar).map CodePoint.digit? = ds.map some :=
      map_digit?_of_radixDigit? (hds.map_radixDigit? (by decide) fun _ => .inl rfl)
    rw [← List.append_nil (List.map _ _)]
    exact digitRun_append hmap nofun
  rw [hdecimal, List.map_cons, List.map_cons]
  by_cases hneg : e < 0
  · have hself : -(digitsValue 10 ds : ℤ) = e := by
      rw [hds.value]
      omega
    rw [if_pos hneg]
    simp only [readExponent?, DecimalLiteral.scanSign, ↓reduceIte, hrun]
    rw [if_pos ⟨trivial, hds.ne_nil, trivial⟩, hself]
  · have hself : (digitsValue 10 ds : ℤ) = e := by
      rw [hds.value]
      omega
    have hplus : CodePoint.ofChar '+' ≠ CodePoint.ofChar '-' := by decide
    rw [if_neg hneg]
    simp only [readExponent?, DecimalLiteral.scanSign, hplus, ↓reduceIte, hrun, Bool.false_eq_true]
    rw [if_pos ⟨trivial, hds.ne_nil, trivial⟩, hself]

/-- A fraction is read up to the mark of the exponent, whether or not it has a point. -/
theorem readFraction_chars {ds : List ℕ} (h : ∀ d ∈ ds, d < 16) (keepPoint : Bool) (rest : Chars) :
    readFraction ((if ds = [] ∧ ¬keepPoint then [] else '.' :: ds.map Nat.digitChar).map
      CodePoint.ofChar ++ CodePoint.ofChar 'p' :: rest) = (ds, CodePoint.ofChar 'p' :: rest) := by
  have hmark : ∀ c ∈ (CodePoint.ofChar 'p' :: rest).head?, radixDigit? 16 c = none := by
    rintro c ⟨⟩
    decide
  split
  · next hnone =>
    have hpoint : CodePoint.ofChar 'p' ≠ CodePoint.ofChar '.' := by decide
    rw [List.map_nil, List.nil_append, readFraction, if_neg hpoint, hnone.1]
  · rw [List.map_cons, List.cons_append, readFraction, if_pos rfl]
    exact radixRun_append (map_radixDigit?_digitChar h) hmark

/-- A literal that is written out is read again. -/
theorem read?_chars (hlt : ∀ d ∈ l.whole ++ l.fraction, d < 16) (hne : l.whole ≠ [])
    (keepPoint : Bool) :
    read? ((l.whole.map Nat.digitChar ++
      (if l.fraction = [] ∧ ¬keepPoint then [] else '.' :: l.fraction.map Nat.digitChar) ++
      'p' :: (if l.exponent < 0 then '-' else '+') :: decimalDigits l.exponent.natAbs).map
        CodePoint.ofChar) = some l := by
  obtain ⟨hwhole, hfraction⟩ := List.forall_mem_append.1 hlt
  have hexponent := readExponent?_chars l.exponent
  rw [List.map_cons] at hexponent
  rw [List.append_assoc, List.map_append, List.map_append, List.map_cons]
  generalize ((if l.exponent < 0 then '-' else '+') :: decimalDigits l.exponent.natAbs).map
    CodePoint.ofChar = rest at hexponent ⊢
  have hpoint : ∀ c ∈ ((if l.fraction = [] ∧ ¬keepPoint then [] else
      '.' :: l.fraction.map Nat.digitChar).map CodePoint.ofChar ++
        CodePoint.ofChar 'p' :: rest).head?, radixDigit? 16 c = none := by
    split
    · rintro c ⟨⟩
      decide
    · rintro c ⟨⟩
      decide
  have hrun := radixRun_append (map_radixDigit?_digitChar hwhole) hpoint
  rw [read?, hrun]
  simp only [readFraction_chars hfraction, if_neg hne, hexponent, Option.map_some]

/-! ## Values -/

/-- Zeros at the end of the fraction make no difference to the number. -/
theorem value_zeros (whole es : List ℕ) (exponent : ℤ) (k : ℕ) :
    value { whole, fraction := es ++ List.replicate k 0, exponent } =
      value { whole, fraction := es, exponent } := by
  have hzeros : digitsValue 16 (List.replicate k 0) = 0 := by
    rw [← List.append_nil (List.replicate k 0), digitsValue_zeros]
    rfl
  have hpos : (16 : ℚ) ^ k ≠ 0 := by positivity
  simp only [value, coefficient]
  rw [← List.append_assoc, digitsValue_append, hzeros, Nat.add_zero, List.length_append,
    List.length_replicate, pow_add, Nat.cast_mul, Nat.cast_pow, Nat.cast_ofNat,
    mul_div_mul_right _ _ hpos]

/-- The literal is the number `x`, or it is rounded to the number of places if there are too few. -/
structure Shows (l : HexLiteral) (x : ℚ) (places : Option ℕ) : Prop where
  /-- Without a number of places, and with all of them, no digit is lost. -/
  exact : (∀ p ∈ places, hexPlaces ≤ p) → l.value = x
  rounds : ∀ p ∈ places, ∃ n, IsRounded (x / 2 ^ l.exponent * 16 ^ p) n ∧
    l.value = n / 16 ^ p * 2 ^ l.exponent
  length_fraction : ∀ p ∈ places, l.fraction.length = p
  /-- Without a number of places there is no zero that could be left out. -/
  trimmed : places = none → l.fraction.getLast? ≠ some 0
  /-- The digit before the point is that of the first place, as far as there are exponents. -/
  exponent : l.exponent = if x = 0 then 0 else max (Int.log 2 x) (-1022)

/-- A literal that is the number itself shows it with all places. -/
theorem Shows.of_value_eq {x : ℚ} {places : Option ℕ} (h : l.value = x)
    (hlength : ∀ p ∈ places, l.fraction.length = p)
    (htrimmed : places = none → l.fraction.getLast? ≠ some 0)
    (hexponent : l.exponent = if x = 0 then 0 else max (Int.log 2 x) (-1022)) :
    l.Shows x places where
  exact := fun _ => h
  rounds := by
    intro p hp
    obtain rfl := hlength p hp
    refine ⟨l.coefficient, ?_, rfl⟩
    have hunit : (2 : ℚ) ^ l.exponent ≠ 0 := (zpow_pos (by norm_num) _).ne'
    have hpow : (16 : ℚ) ^ l.fraction.length ≠ 0 := by positivity
    rw [← h, value, mul_div_cancel_right₀ _ hunit, div_mul_cancel₀ _ hpow]
    exact .natCast _
  length_fraction := hlength
  trimmed := htrimmed
  exponent := hexponent

end HexLiteral

namespace Double

variable {x : Double}

/-! ## The digits of a number -/

theorem significand_eq (x : Double) :
    x.significand = x.hexLead * 16 ^ hexPlaces + x.fractionBits := by
  unfold significand hexLead
  split
  · rw [Nat.zero_mul, Nat.zero_add]
  · rw [Nat.one_mul]
    rfl

theorem fractionBits_lt (x : Double) : x.fractionBits < 16 ^ hexPlaces :=
  Nat.mod_lt _ (by decide)

/-- A number in units of the last of all places. -/
theorem magnitude_eq_hex (x : Double) :
    x.magnitude = x.significand / 16 ^ hexPlaces * 2 ^ x.hexExponent := by
  unfold magnitude hexExponent
  split
  · next hzero => rw [hzero, Nat.cast_zero, zero_div, zero_mul, zero_mul]
  · have hpow : (16 : ℚ) ^ hexPlaces = 2 ^ (52 : ℤ) := by norm_num [hexPlaces]
    rw [zpow_add₀ (by norm_num), hpow]
    field_simp

theorem magnitude_eq_zero_iff : x.magnitude = 0 ↔ x.significand = 0 := by
  have hpos : (2 : ℚ) ^ x.exponent ≠ 0 := (zpow_pos (by norm_num) _).ne'
  rw [magnitude, mul_eq_zero_iff_right hpos, Nat.cast_eq_zero]

/-- One digit stands before the point, which is only zero if the exponent is the least one. -/
theorem hexExponent_eq (x : Double) :
    x.hexExponent = if x.magnitude = 0 then 0 else max (Int.log 2 x.magnitude) (-1022) := by
  simp only [hexExponent, magnitude_eq_zero_iff]
  split
  · rfl
  · next hzero =>
    have hpos : (0 : ℚ) < x.magnitude :=
      mul_pos (by exact_mod_cast Nat.pos_of_ne_zero hzero) (zpow_pos (by norm_num) _)
    have hunit : (0 : ℚ) < 2 ^ x.exponent := zpow_pos (by norm_num) _
    have hscaled : ∀ k : ℕ, ((2 : ℕ) : ℚ) ^ (x.exponent + k) = ((2 ^ k : ℕ) : ℚ) * 2 ^ x.exponent :=
      zpow_add_natCast (by decide) x.exponent
    obtain ⟨hlt, hle, hfull⟩ := x.canonical
    simp only [BinaryFormat.double] at hlt hle hfull
    have hbelow : Int.log 2 x.magnitude < x.exponent + (53 : ℕ) := by
      refine (Int.lt_zpow_iff_log_lt (by decide) hpos).1 ?_
      rw [hscaled]
      exact mul_lt_mul_of_pos_right (by exact_mod_cast hlt) hunit
    by_cases hleast : x.exponent = -1074
    · omega
    · -- all bits are used, and the first of them is the digit before the point
      have habove : x.exponent + (52 : ℕ) ≤ Int.log 2 x.magnitude := by
        refine (Int.zpow_le_iff_le_log (by decide) hpos).1 ?_
        rw [hscaled]
        exact mul_le_mul_of_nonneg_right (by exact_mod_cast hfull (by omega)) hunit.le
      omega

/-- All digits of a number, and no more. -/
theorem exists_hexDigits_full (x : Double) : ∃ l : HexLiteral,
    radixDigits 16 x.hexLead = l.whole.map Nat.digitChar ∧
      zeroPadded hexPlaces (radixDigits 16 x.fractionBits) = l.fraction.map Nat.digitChar ∧
      (∀ d ∈ l.whole ++ l.fraction, d < 16) ∧ l.whole ≠ [] ∧ l.exponent = x.hexExponent ∧
      l.fraction.length = hexPlaces ∧ l.value = x.magnitude := by
  obtain ⟨ws, hws, hwhole⟩ := exists_radixDigits (by decide : 1 < 16) x.hexLead
  obtain ⟨ds, hfraction, hlt, hvalue, hlength⟩ :=
    exists_zeroPadded_radixDigits (by decide : 1 < 16) hexPlaces x.fractionBits
  rw [max_length_radixDigits (by decide) (by decide) x.fractionBits_lt] at hlength
  refine ⟨⟨ws, ds, x.hexExponent⟩, hwhole, hfraction, List.forall_mem_append.2 ⟨hws.lt, hlt⟩,
    hws.ne_nil, rfl, hlength, ?_⟩
  rw [HexLiteral.value, HexLiteral.coefficient, digitsValue_append, hws.value, hvalue, hlength,
    ← significand_eq, magnitude_eq_hex]

/-- The digits of a number that is rounded to fewer places. -/
theorem exists_hexDigits_rounded (x : Double) {p : ℕ} (hp : p < hexPlaces) : ∃ l : HexLiteral,
    x.hexDigits (some p) = (l.whole.map Nat.digitChar, l.fraction.map Nat.digitChar) ∧
      (∀ d ∈ l.whole ++ l.fraction, d < 16) ∧ l.whole ≠ [] ∧ l.exponent = x.hexExponent ∧
      l.Shows x.magnitude (some p) := by
  simp only [hexDigits, if_pos hp]
  generalize hkept : roundHalfEven x.significand (16 ^ (hexPlaces - p)) = kept
  obtain ⟨ws, hws, hwhole⟩ := exists_radixDigits (by decide : 1 < 16) (kept / 16 ^ p)
  obtain ⟨ds, hfraction, hlt, hvalue, hlength⟩ : ∃ ds : List ℕ,
      (if p = 0 then [] else zeroPadded p (radixDigits 16 (kept % 16 ^ p))) =
        ds.map Nat.digitChar ∧ (∀ d ∈ ds, d < 16) ∧ digitsValue 16 ds = kept % 16 ^ p ∧
        ds.length = p := by
    split
    · next hzero =>
      subst hzero
      exact ⟨[], rfl, nofun, (Nat.mod_one kept).symm, rfl⟩
    · next hzero =>
      obtain ⟨ds, hds⟩ :=
        exists_zeroPadded_radixDigits (by decide : 1 < 16) p (kept % 16 ^ p)
      rw [max_length_radixDigits (by decide) (Nat.pos_of_ne_zero hzero)
        (Nat.mod_lt _ (Nat.pow_pos (by decide)))] at hds
      exact ⟨ds, hds⟩
  refine ⟨⟨ws, ds, x.hexExponent⟩, by rw [hwhole, hfraction],
    List.forall_mem_append.2 ⟨hws.lt, hlt⟩, hws.ne_nil, rfl, ?_, ?_, ?_, nofun, x.hexExponent_eq⟩
  · intro hall
    exact absurd (hall p rfl) (not_le.2 hp)
  · rintro q ⟨⟩
    refine ⟨kept, ?_, ?_⟩
    · have hround := isRounded_roundHalfEven x.significand
        (Nat.pow_pos (by decide) : 0 < 16 ^ (hexPlaces - p))
      have hunit : (2 : ℚ) ^ x.hexExponent ≠ 0 := (zpow_pos (by norm_num) _).ne'
      have hsplit : (16 : ℚ) ^ hexPlaces = 16 ^ (hexPlaces - p) * 16 ^ p := by
        rw [← pow_add, Nat.sub_add_cancel hp.le]
      rw [hkept, Nat.cast_pow, Nat.cast_ofNat] at hround
      rw [magnitude_eq_hex, mul_div_cancel_right₀ _ hunit, hsplit, ← div_div,
        div_mul_cancel₀ _ (by positivity)]
      exact hround
    · rw [HexLiteral.value, HexLiteral.coefficient, digitsValue_append, hws.value, hvalue, hlength,
        Nat.div_add_mod']
  · rintro q ⟨⟩
    exact hlength

/-- The digits of a number are those of a literal that shows it. -/
theorem exists_hexDigits (x : Double) (places : Option ℕ) : ∃ l : HexLiteral,
    x.hexDigits places = (l.whole.map Nat.digitChar, l.fraction.map Nat.digitChar) ∧
      (∀ d ∈ l.whole ++ l.fraction, d < 16) ∧ l.whole ≠ [] ∧ l.exponent = x.hexExponent ∧
      l.Shows x.magnitude places := by
  obtain ⟨⟨ws, ds, e⟩, hwhole, hfraction, hlt, hne, rfl, hlength, hvalue⟩ :=
    x.exists_hexDigits_full
  simp only at hwhole hfraction hlt hne hlength
  obtain ⟨hws, hds⟩ := List.forall_mem_append.1 hlt
  cases places with
  | none =>
    obtain ⟨es, k, rfl, hlast, hdrop⟩ := exists_dropWhile_zero hds
    obtain ⟨hes, -⟩ := List.forall_mem_append.1 hds
    refine ⟨⟨ws, es, x.hexExponent⟩, ?_, List.forall_mem_append.2 ⟨hws, hes⟩, hne, rfl,
      .of_value_eq ?_ nofun (fun _ => hlast) x.hexExponent_eq⟩
    · simp only [hexDigits, hwhole, hfraction, hdrop]
    · rwa [HexLiteral.value_zeros] at hvalue
  | some p =>
    by_cases hp : p < hexPlaces
    · exact x.exists_hexDigits_rounded hp
    · refine ⟨⟨ws, ds ++ List.replicate (p - hexPlaces) 0, x.hexExponent⟩, ?_, ?_, hne, rfl,
        .of_value_eq ?_ ?_ nofun x.hexExponent_eq⟩
      · simp only [hexDigits, if_neg hp, hwhole, hfraction, List.map_append, List.map_replicate]
        rfl
      · refine List.forall_mem_append.2 ⟨hws, List.forall_mem_append.2 ⟨hds, fun d hd => ?_⟩⟩
        rw [List.eq_of_mem_replicate hd]
        decide
      · rwa [HexLiteral.value_zeros]
      · rintro q ⟨⟩
        rw [List.length_append, List.length_replicate, hlength]
        omega

/-- **Hexadecimal figures are correctly rounded.** What is written of the size of a number, which is
the number itself if it is not negative, is read as a literal that shows it: exactly if no places
are asked for, or all of them, and else rounded once, half to even, to the last place. -/
theorem hexFigures_read (x : Double) (places : Option ℕ) (keepPoint : Bool) : ∃ l : HexLiteral,
    HexLiteral.read? ((x.hexFigures places keepPoint).map CodePoint.ofChar) = some l ∧
      l.Shows x.magnitude places := by
  obtain ⟨l, hdigits, hlt, hne, hexponent, hshows⟩ := x.exists_hexDigits places
  refine ⟨l, ?_, hshows⟩
  have hread := HexLiteral.read?_chars hlt hne keepPoint
  simp only [hexFigures, hdigits, ← hexponent, List.map_eq_nil_iff]
  exact hread

/-- A little less than two is rounded up to two, whose first digit keeps the exponent. -/
theorem hexFigures_read_carry :
    (ofBits 0x3FFFD70A3D70A3D7).hexFigures (some 0) true = ['2', '.', 'p', '+', '0'] ∧
      ∃ l : HexLiteral, HexLiteral.read? (['2', '.', 'p', '+', '0'].map CodePoint.ofChar) = some l ∧
        l.Shows (ofBits 0x3FFFD70A3D70A3D7).magnitude (some 0) := by
  have htext : (ofBits 0x3FFFD70A3D70A3D7).hexFigures (some 0) true =
      ['2', '.', 'p', '+', '0'] := by decide +kernel
  refine ⟨htext, ?_⟩
  have hread := hexFigures_read (ofBits 0x3FFFD70A3D70A3D7) (some 0) true
  rwa [htext] at hread

end Double

end UnitText
