import UnitText.Proofs.Run.Decimals
import UnitText.Proofs.Number.Shortest
import Mathlib.Data.Nat.Cast.Field
import Mathlib.Data.Nat.Prime.Basic

/-!
# Floating-point and decimal numbers alike

A finite floating-point number is a decimal number, with a place for each of its binary ones. The
conversions in decimal form write both of them alike, as long as arithmetic has room for the decimal
one: they round the same number once, and lay it out by its digits and not by its coefficient and
its power of ten. The one exception is zero with an exponent. There is no first digit whose place
the exponent could be, and a floating-point zero gets the exponent zero, but a decimal zero the
number of its places.

## Main definitions

- `Double.toDecimal` — the decimal number that a floating-point number is
- `Chars.lastNumber` — the digits that a text ends in

## Main statements

- `Figures.fixed_congr`, `Figures.scientific_congr`, `Figures.general_congr` — equal numbers are
  laid out alike
- `Field.finiteDouble_eq_finiteDecimal_iff` — when the two are written alike
- `Formatter.alike_iff` — when the two are formatted alike
-/

namespace UnitText

/-! ## Layouts of equal numbers -/

namespace Figures

variable {c c' : ℕ} {e e' : ℤ} (h : (c * 10 ^ e : ℚ) = c' * 10 ^ e')
include h

theorem fixed_congr (places : ℕ) : fixed c e places = fixed c' e' places := by
  rw [fixed, fixed, scaleRounded_eq_of_decimal_eq h]

theorem significant_congr (hc : c ≠ 0) (count : ℕ) :
    significant c e count = significant c' e' count := by
  have htop := add_digitCount_eq_of_decimal_eq h hc
  have hplace : ∀ e : ℤ, e + count - 1 - (e' + digitCount c' - 1) =
      e + (count - (e' + digitCount c')) := by
    intro e
    ring
  have hdigits : scaleRounded c (e + count - 1 - (e' + digitCount c' - 1)) =
      scaleRounded c' (e' + count - 1 - (e' + digitCount c' - 1)) := by
    rw [hplace, hplace, scaleRounded_eq_of_decimal_eq h]
  simp only [significant, htop, hdigits]

/-- The exponent of zero is not the number's own. -/
theorem scientific_congr {zeroExponent zeroExponent' : ℤ}
    (hexponent : c = 0 → zeroExponent = zeroExponent') (places : ℕ) :
    scientific c e places zeroExponent = scientific c' e' places zeroExponent' := by
  have hzero := eq_zero_iff_of_decimal_eq h
  by_cases hc : c = 0
  · rw [scientific, scientific, if_pos hc, if_pos (hzero.1 hc), hexponent hc]
  · rw [scientific, scientific, if_neg hc, if_neg (mt hzero.2 hc), significant_congr h hc]

theorem general_congr (precision : ℕ) (keepZeros : Bool) :
    general c e precision keepZeros = general c' e' precision keepZeros := by
  have htop : (if c = 0 then 0 else (significant c e precision).2) =
      if c' = 0 then 0 else (significant c' e' precision).2 := by
    by_cases hc : c = 0
    · rw [if_pos hc, if_pos ((eq_zero_iff_of_decimal_eq h).1 hc)]
    · rw [if_neg hc, if_neg (mt (eq_zero_iff_of_decimal_eq h).2 hc), significant_congr h hc]
  simp only [general, htop, fixed_congr h, scientific_congr h fun _ => rfl]

end Figures

theorem Field.figures_congr {form : FloatForm} {c c' : ℕ} {e e' zeroExponent zeroExponent' : ℤ}
    (h : (c * 10 ^ e : ℚ) = c' * 10 ^ e')
    (hexponent : form = .exponent → c = 0 → zeroExponent = zeroExponent') (p : ℕ)
    (alternate : Bool) :
    figures form c e p zeroExponent alternate = figures form c' e' p zeroExponent' alternate := by
  cases form with
  | fixed | hex => exact Figures.fixed_congr h p
  | exponent => exact Figures.scientific_congr h (hexponent rfl) p
  | general => exact Figures.general_congr h _ _

/-! ## The decimal number that a floating-point number is -/

namespace Double

variable {x : Double}

/-- The finite number as a decimal one: a quotient in lowest terms by a power of two, which has as
many places in decimal as in binary. -/
def toDecimal (x : Double) : Decimal :=
  let g := x.numerator.gcd x.denominator
  let k := (x.denominator / g).log2
  .finite x.negative (x.numerator / g * 5 ^ k) (-k)

theorem magnitude_abs (x : Double) : x.abs.magnitude = x.magnitude := by
  have hlt : x.bits % 2 ^ 63 < 2 ^ 64 := by omega
  have hexponent : x.abs.exponentBits = x.exponentBits := by
    simp only [abs, ofBits, exponentBits, Nat.mod_eq_of_lt hlt]
    omega
  have hfraction : x.abs.fractionBits = x.fractionBits := by
    simp only [abs, ofBits, fractionBits, Nat.mod_eq_of_lt hlt]
    omega
  simp only [magnitude, significand, exponent, hexponent, hfraction]

theorem magnitude_eq_div (x : Double) : x.magnitude = (x.numerator / x.denominator : ℚ) := by
  rw [magnitude, numerator, denominator]
  exact_mod_cast mul_zpow_eq_div x.significand 2 x.exponent

/-- The decimal number is the same number, and zero has no places. -/
theorem exists_toDecimal (x : Double) : ∃ (c : ℕ) (e : ℤ), x.toDecimal = .finite x.negative c e ∧
    (c * 10 ^ e : ℚ) = x.magnitude ∧ (c = 0 → e = 0) := by
  have hden : x.denominator = 2 ^ (-x.exponent).toNat := rfl
  have hleft := x.numerator.gcd_dvd_left x.denominator
  have hright := x.numerator.gcd_dvd_right x.denominator
  obtain ⟨i, hi, hgcd⟩ := (Nat.dvd_prime_pow Nat.prime_two).1 (hright.trans hden.dvd)
  have hreduced : x.denominator / x.numerator.gcd x.denominator =
      2 ^ ((-x.exponent).toNat - i) := by
    rw [hgcd, hden, Nat.pow_div hi (by decide)]
  refine ⟨_, _, rfl, ?_, fun hc => ?_⟩
  · have hten : ∀ k : ℕ, (10 : ℚ) ^ k = 5 ^ k * 2 ^ k := by
      intro k
      rw [← mul_pow]
      norm_num
    rw [magnitude_eq_div, ← Nat.cast_div_div_div_cancel_right hright hleft, hreduced,
      Nat.log2_two_pow, zpow_neg, zpow_natCast, hten]
    push_cast
    field_simp
  · have hpow : 5 ^ (x.denominator / x.numerator.gcd x.denominator).log2 ≠ 0 :=
      (Nat.pow_pos (by decide)).ne'
    have hnum : x.numerator = 0 := Nat.eq_zero_of_dvd_of_div_eq_zero hleft
      ((Nat.mul_eq_zero.1 hc).resolve_right hpow)
    have hpos : 0 < x.denominator := hden ▸ Nat.two_pow_pos _
    rw [hnum, Nat.gcd_zero_left, Nat.div_self hpos]
    rfl

/-- A finite number of few digits is one that arithmetic has room for. -/
theorem isKept_magnitude (hx : x.isFinite)
    (hdigits : ∃ (k : ℕ) (q : ℤ), k < 10 ^ Decimal.precision ∧ x.magnitude = k * 10 ^ q) :
    Decimal.IsKept x.magnitude := by
  obtain ⟨k, q, hk, hself⟩ := hdigits
  by_cases hzero : x.significand = 0
  · refine ⟨0, Decimal.minResultExponent, by decide, le_rfl, ?_⟩
    rw [magnitude, hzero, Nat.cast_zero, zero_mul, zero_mul]
  · refine ⟨k, q, hk, ?_, hself⟩
    have hlow := (magnitude_bounds hx hzero).1
    have hhigh : x.magnitude < (10 : ℚ) ^ (q + Decimal.precision : ℤ) := by
      rw [hself, add_comm, zpow_add₀ (by norm_num), zpow_natCast]
      exact mul_lt_mul_of_pos_right (by exact_mod_cast hk) (zpow_pos (by norm_num) q)
    have hlt := (zpow_lt_zpow_iff_right₀ (by norm_num)).1 (hlow.trans_lt hhigh)
    have hbounds : Decimal.minResultExponent ≤ -400 - Decimal.precision := by decide
    omega

theorem magnitude_lt_decimal_overflowLimit (hx : x.isFinite) :
    x.magnitude < Decimal.overflowLimit := by
  have hunit : (10 : ℚ) ^ (400 : ℤ) ≤
      10 ^ (Decimal.maxResultExponent + 1 - Decimal.precision : ℤ) :=
    zpow_le_zpow_right₀ (by norm_num) (by decide)
  have hone : (1 : ℚ) ≤ 10 ^ Decimal.precision - 1 / 2 := by norm_num [Decimal.precision]
  calc x.magnitude < 2 ^ BinaryFormat.double.limit := magnitude_lt_limit hx
    _ ≤ ((10 : ℕ) : ℚ) ^ (400 : ℤ) := limit_le_ten_zpow
    _ ≤ 10 ^ (Decimal.maxResultExponent + 1 - Decimal.precision : ℤ) := hunit
    _ ≤ Decimal.overflowLimit :=
        le_mul_of_one_le_left (zpow_pos (by norm_num) _).le hone

/-- The decimal number keeps its size without its sign, if arithmetic has room for it. -/
theorem exists_abs_toDecimal (hx : x.isFinite)
    (hdigits : ∃ (k : ℕ) (q : ℤ), k < 10 ^ Decimal.precision ∧ x.magnitude = k * 10 ^ q) :
    ∃ (c : ℕ) (e : ℤ), x.toDecimal = .finite x.negative c e ∧ ∃ (c' : ℕ) (e' : ℤ),
      (Decimal.finite x.negative c e).abs = .ok (.finite false c' e') ∧
      (c' * 10 ^ e' : ℚ) = x.magnitude ∧ (c' = 0 → e' = 0) := by
  obtain ⟨c, e, hdecimal, hself, hzero⟩ := x.exists_toDecimal
  obtain ⟨c', e', habs, -, hkept⟩ := Decimal.exists_abs (c := c) (e := e) x.negative
    (hself ▸ magnitude_lt_decimal_overflowLimit hx)
  have hself' := hkept.2 (hself ▸ isKept_magnitude hx hdigits)
  refine ⟨c, e, hdecimal, c', e', habs, hself'.trans hself, fun hc' => ?_⟩
  have hc := (eq_zero_iff_of_decimal_eq hself').1 hc'
  rw [hc, hzero hc] at habs
  cases habs
  rfl

end Double

/-! ## The digits that a text ends in -/

namespace Chars

/-- The number whose digits a text ends in, but for blanks. -/
def lastNumber (cs : Chars) : ℕ :=
  digitsValue 10 (digitRun (cs.reverse.dropWhile isBlank)).1.reverse

theorem lastNumber_append (front : Chars) {c : CodePoint} (hc : c.digit? = none) {ds : List ℕ}
    (hlt : ∀ d ∈ ds, d < 10) (hne : ds ≠ []) (k : ℕ) :
    lastNumber (front ++ c :: (Field.points (ds.map Nat.digitChar) ++ blanks k)) =
      digitsValue 10 ds := by
  have hblanks : ∀ x ∈ blanks k, isBlank x := by
    intro x hx
    obtain rfl := List.eq_of_mem_replicate hx
    rfl
  have hreverse : (front ++ c :: (Field.points (ds.map Nat.digitChar) ++ blanks k)).reverse =
      blanks k ++ (Field.points (ds.reverse.map Nat.digitChar) ++ c :: front.reverse) := by
    simp [blanks, Field.points]
  -- the last digit is the first from behind, and no blank
  have hkept :
      (Field.points (ds.reverse.map Nat.digitChar) ++ c :: front.reverse).dropWhile isBlank =
        Field.points (ds.reverse.map Nat.digitChar) ++ c :: front.reverse := by
    obtain ⟨d, es, hes⟩ := List.exists_cons_of_ne_nil (List.reverse_ne_nil_iff.2 hne)
    have hd : d < 10 := hlt d (List.mem_reverse.1 (hes ▸ List.mem_cons_self))
    have hdigit : ∀ d < 10, ¬isBlank (CodePoint.ofChar d.digitChar) := by decide
    rw [hes]
    exact List.dropWhile_cons_of_neg (hdigit d hd)
  have hrun : digitRun (Field.points (ds.reverse.map Nat.digitChar) ++ c :: front.reverse) =
      (ds.reverse, c :: front.reverse) :=
    digitRun_append (map_digit?_digitChar fun d hd => hlt d (List.mem_reverse.1 hd)) (by simpa)
  rw [lastNumber, hreverse, List.dropWhile_append_of_pos hblanks, hkept, hrun, List.reverse_reverse]

end Chars

namespace Field

open Chars

variable {f : Field} {form : FloatForm} {negative : Bool} {c p : ℕ} {e : ℤ} {x : Double}

theorem cased_append (f : Field) (cs ds : List Char) :
    f.cased (cs ++ ds) = f.cased cs ++ f.cased ds := by
  unfold cased points
  split <;> simp only [List.map_append]

/-- However a number is filled, it ends as its digits do. -/
theorem exists_padFinite (hwidth : f.width ≤ 2 ^ 62) (negative : Bool) (front last : List Char) :
    ∃ (start : Chars) (k : ℕ), f.padFinite negative [] (front ++ last) =
      .ok (start ++ (f.cased last ++ blanks k)) := by
  rw [padFinite, padNumber, cased_nil, cased_append, List.append_nil, filling_missing hwidth]
  generalize f.missing (f.signChars negative true ++ (f.cased front ++ f.cased last)) = n
  cases f.flags.left with
  | true =>
    refine ⟨f.signChars negative true ++ f.cased front, n, ?_⟩
    simp [blanks]
  | false =>
    cases f.flags.zero with
    | true =>
      refine ⟨f.signChars negative true ++ (List.replicate n (CodePoint.ofChar '0') ++
        f.cased front), 0, ?_⟩
      simp [blanks]
    | false =>
      refine ⟨List.replicate n (CodePoint.ofChar ' ') ++ (f.signChars negative true ++
        f.cased front), 0, ?_⟩
      simp [blanks]

theorem exists_padFinite_eq_ok (hwidth : f.width ≤ 2 ^ 62) (negative : Bool) (digits : List Char) :
    ∃ cs, f.padFinite negative [] digits = .ok cs := by
  obtain ⟨start, k, hpad⟩ := exists_padFinite hwidth negative digits []
  rw [List.append_nil] at hpad
  exact ⟨_, hpad⟩

/-- A number with an exponent ends in the digits of the exponent. -/
theorem exists_lastNumber_padFinite (hwidth : f.width ≤ 2 ^ 62) (negative : Bool)
    {figures : Figures} {exponent : ℤ} (hexponent : figures.exponent = some exponent)
    (keepPoint : Bool) :
    ∃ cs : Chars, f.padFinite negative [] (figures.chars keepPoint) = .ok cs ∧
      cs.lastNumber = exponent.natAbs := by
  obtain ⟨ds, hdigits, hlt, hvalue, hlength⟩ := exists_zeroPadded 2 exponent.natAbs
  have hne : ds ≠ [] := List.ne_nil_of_length_pos (by omega)
  obtain ⟨sign, hsign, hupper, hmark⟩ : ∃ sign : Char,
      (if exponent < 0 then '-' else '+') = sign ∧ sign.toUpper = sign ∧
        (CodePoint.ofChar sign).digit? = none := by
    split
    · exact ⟨_, rfl, by decide, by decide⟩
    · exact ⟨_, rfl, by decide, by decide⟩
  have hchars : ∃ front, figures.chars keepPoint = front ++ sign :: ds.map Nat.digitChar := by
    refine ⟨figures.whole ++ (if figures.fraction = [] ∧ ¬keepPoint then [] else
      '.' :: figures.fraction) ++ ['e'], ?_⟩
    rw [Figures.chars, hexponent, List.append_assoc _ ['e'] _, List.singleton_append, ← hdigits,
      ← hsign]
    rfl
  have hcased : f.cased (sign :: ds.map Nat.digitChar) =
      CodePoint.ofChar sign :: points (ds.map Nat.digitChar) := by
    unfold cased points
    split
    · rw [List.map_cons, Figures.keepsFigures_toUpper.map_digits hlt, hupper, List.map_cons]
    · rfl
  obtain ⟨front, hfront⟩ := hchars
  obtain ⟨start, k, hpad⟩ := exists_padFinite hwidth negative front (sign :: ds.map Nat.digitChar)
  rw [hfront]
  refine ⟨_, hpad, ?_⟩
  rw [hcased, List.cons_append, Chars.lastNumber_append start hmark hlt hne, hvalue]

/-! ## Numbers of two kinds -/

/-- The size of a finite number has no sign, and is written like a decimal number. -/
theorem finiteDouble_eq_padFinite (hp : f.precision.getD defaultPrecision = p) (hlt : p < 2 ^ 31)
    (form : FloatForm) (negative : Bool) (x : Double) :
    f.finiteDouble form negative x.abs = f.padFinite negative []
      ((figures form x.abs.decimalParts.1 x.abs.decimalParts.2 p 0 f.flags.alternate).chars
        f.flags.alternate) := by
  have hok : f.floatPrecision = .ok p := by
    rw [floatPrecision, hp, if_neg (by omega), if_neg (by omega)]
  rw [finiteDouble, hok, Double.negative_abs]
  rfl

theorem exists_finiteDouble (hwidth : f.width ≤ 2 ^ 62)
    (hp : f.precision.getD defaultPrecision = p) (hlt : p < 2 ^ 31) (form : FloatForm)
    (negative : Bool) (x : Double) : ∃ cs, f.finiteDouble form negative x.abs = .ok cs := by
  rw [finiteDouble_eq_padFinite hp hlt]
  exact exists_padFinite_eq_ok hwidth negative _

theorem shownPrecision_lt {precision : Option ℤ} (h : ∀ p ∈ precision, p < 2 ^ 31) :
    shownPrecision precision < 2 ^ 31 := by
  cases precision with
  | none => decide
  | some n =>
    have hn := h n rfl
    rw [shownPrecision, Option.filter_some]
    split
    · show n.toNat < 2 ^ 31
      omega
    · decide

theorem places_le_maxExponent (hlt : p < 2 ^ 31) (form : FloatForm) :
    form.places p ≤ Decimal.maxExponent := by
  have hmax : (2 : ℤ) ^ 31 ≤ Decimal.maxExponent := by decide
  unfold FloatForm.places
  split <;> omega

theorem exists_finiteDecimal (hwidth : f.width ≤ 2 ^ 62)
    (hp : f.precision.getD defaultPrecision = p) (hlt : p < 2 ^ 31) (form : FloatForm)
    (negative : Bool) (c : ℕ) (e : ℤ) : ∃ cs, f.finiteDecimal form negative c e = .ok cs := by
  rw [finiteDecimal_eq_padFinite hp (places_le_maxExponent hlt form)]
  exact exists_padFinite_eq_ok hwidth negative _

/-- **A number is written alike as a floating-point and as a decimal one**, but for a zero with an
exponent: the exponent of a decimal zero is the number of its places. -/
theorem finiteDouble_eq_finiteDecimal_iff (hwidth : f.width ≤ 2 ^ 62)
    (hp : f.precision.getD defaultPrecision = p) (hlt : p < 2 ^ 31)
    (hself : (c * 10 ^ e : ℚ) = x.magnitude) (hzero : c = 0 → e = 0) (form : FloatForm)
    (negative : Bool) :
    f.finiteDouble form negative x.abs = f.finiteDecimal form negative c e ↔
      ¬(form = .exponent ∧ x.magnitude = 0 ∧ p ≠ 0) := by
  have hequal : (x.abs.decimalParts.1 * 10 ^ x.abs.decimalParts.2 : ℚ) = c * 10 ^ e := by
    rw [Double.decimalParts_eq, Double.magnitude_abs, hself]
  have hparts := eq_zero_iff_of_decimal_eq hequal
  have hmagnitude : x.magnitude = 0 ↔ c = 0 := by rw [← hself, decimal_eq_zero_iff]
  have hplaces := places_le_maxExponent hlt form
  rw [finiteDouble_eq_padFinite hp hlt, finiteDecimal_eq_padFinite hp hplaces, hmagnitude]
  constructor
  · -- the two texts of zero end in the exponents, which are not the same
    rintro heq ⟨rfl, hc, hne⟩
    have hdouble : (figures .exponent x.abs.decimalParts.1 x.abs.decimalParts.2 p 0
        f.flags.alternate).exponent = some 0 := by
      rw [figures, Figures.scientific, if_pos (hparts.2 hc)]
    have hdecimal :
        (figures .exponent c e p (e + p) f.flags.alternate).exponent = some (p : ℤ) := by
      rw [figures, Figures.scientific, if_pos hc, hzero hc, zero_add]
    obtain ⟨cs, hcs, hlast⟩ := exists_lastNumber_padFinite hwidth negative hdouble f.flags.alternate
    obtain ⟨ds, hds, hlast'⟩ :=
      exists_lastNumber_padFinite hwidth negative hdecimal f.flags.alternate
    rw [hcs, hds] at heq
    cases heq
    rw [hlast] at hlast'
    exact hne hlast'.symm
  · intro hnot
    rw [figures_congr hequal]
    intro hform hparts0
    have hc := hparts.1 hparts0
    have hp0 : p = 0 := by
      by_contra hne
      exact hnot ⟨hform, hc, hne⟩
    rw [hzero hc, hp0]
    rfl

/-- A floating-point conversion writes a finite number as the number that it is. -/
theorem render_float {upper : Bool} (hkind : f.spec.kind = .float form upper) (hform : form ≠ .hex)
    (hx : x.isFinite) : f.render { family := .float, value := .float x, bits := some 64 } =
      (do return .chars (← f.finiteDouble form x.negative x.abs)) := by
  have hcheck : Argument.check { family := .float, value := .float x, bits := some 64 } f.spec =
      .ok () := by
    rw [Argument.check_eq_ok, hkind]
    rfl
  have hnearest : nearest f.spec (.float x) = .ok x := nearest_eq_ok.2 rfl
  have hdouble : f.double form x = f.finiteDouble form x.negative x.abs := by
    cases form with
    | hex => exact absurd rfl hform
    | fixed | exponent | general =>
      simp only [double, hx]
      rfl
  have hfloat : f.float form { family := .float, value := .float x, bits := some 64 } =
      f.finiteDouble form x.negative x.abs := by
    rw [float, hcheck, ← hdouble]
    simp only [hnearest]
    rfl
  rw [render, hkind]
  simp only [hfloat]

end Field

namespace Formatter

variable {f : Formatter} {s : Specifier} {slots : Slots} {vs us rest : List Value}
  {width precision : Option ℤ}

/-- A template that is a single specifier with an output in ASCII has that output in units of its
own. -/
theorem exists_format_ascii {stores : Slots} {cs : Chars}
    (hscan : Scan.ofChars f.template = { tokens := [.specifier s], failure := none })
    (hout : s.Outputs f.width slots 0 vs (.chars cs) stores) (hascii : cs.IsAscii)
    (rest : List Value) : ∃ R r, f.format slots (vs ++ rest) = (.ok R, r) ∧
      Text.encodeLike cs f.container = .ok R ∧ R.decode = .ok cs := by
  obtain ⟨R, hR, hdecode⟩ :=
    Text.decode_encodeLike f.container fun x hx => (hascii x hx).not_isSurrogate
  obtain ⟨r, hformat⟩ := exists_format_specifier hscan hout (.chars _) hR rest
  exact ⟨R, r, hformat, hR, hdecode⟩

/-- **Floating-point and decimal numbers are formatted alike.** A template that is a single
conversion in decimal form, with any flags, width and precision, is applied to a finite number that
has no more digits than arithmetic keeps: once as a floating-point number, and once as the decimal
number that it is, with the same sign. Both have a text, and the texts are the same, except for a
zero with an exponent and with places, where they are not. -/
theorem alike_iff {form : FloatForm} {upper : Bool} {x : Double}
    (hscan : Scan.ofChars f.template = { tokens := [.specifier s], failure := none })
    (hkind : s.kind = .float form upper) (hform : form ≠ .hex) (htakes : s.kind.takes s.length)
    (hwidth : Count.Reads s .width slots s.width vs width)
    (hprecision : Count.Reads s .precision slots s.precision us precision)
    (hwidthBound : ∀ n ∈ width, n.natAbs ≤ 2 ^ 31) (hprecisionBound : ∀ p ∈ precision, p < 2 ^ 31)
    (hx : x.isFinite)
    (hdigits : ∃ (k : ℕ) (q : ℤ), k < 10 ^ Decimal.precision ∧ x.magnitude = k * 10 ^ q) :
    ∃ R R' r r', f.format slots (vs ++ (us ++ .float x :: rest)) = (.ok R, r) ∧
      f.format slots (vs ++ (us ++ .decimal x.toDecimal :: rest)) = (.ok R', r') ∧
      (R = R' ↔
        ¬(form = .exponent ∧ x.magnitude = 0 ∧ Field.shownPrecision precision ≠ 0)) := by
  have hpercent : s.kind ≠ .percent := by simp [hkind]
  let field := Field.create s width precision f.width 0
  have hfield : field.width ≤ 2 ^ 62 := by
    cases width with
    | none => exact Nat.zero_le _
    | some n => exact (hwidthBound n rfl).trans (by decide)
  have hshown : field.precision.getD defaultPrecision = Field.shownPrecision precision :=
    congrArg (Option.getD · defaultPrecision) (Field.precision_create s width precision f.width 0)
  have hlt := Field.shownPrecision_lt hprecisionBound
  obtain ⟨c, e, hdecimal, c', e', habs, hself, hzero⟩ := Double.exists_abs_toDecimal hx hdigits
  have hagree := Field.finiteDouble_eq_finiteDecimal_iff hfield hshown hlt hself hzero form
    x.negative
  obtain ⟨cs, hcs⟩ := Field.exists_finiteDouble hfield hshown hlt form x.negative x
  obtain ⟨ds, hds⟩ := Field.exists_finiteDecimal hfield hshown hlt form x.negative c' e'
  have hrender : field.render { family := .float, value := .float x, bits := some 64 } =
      .ok (.chars cs) := by
    rw [Field.render_float hkind hform hx, hcs]
    rfl
  have hrender' : field.render (.ofOther (.decimal x.toDecimal) .fixedPoint) =
      .ok (.chars ds) := by
    rw [Field.render_eq_decimal hkind hform, hdecimal,
      (Field.decimal_finite_eq_ok hform).2 ⟨c', e', habs, hds⟩]
    rfl
  obtain ⟨R, r, hformat, hencode, hdecode⟩ := exists_format_ascii hscan
    (.value hpercent htakes hwidth hprecision (v := .float x) rfl hrender)
    ((field.same_finiteDouble .wide32 0 form x.negative x.abs).isAscii cs hcs) rest
  obtain ⟨R', r', hformat', hencode', hdecode'⟩ := exists_format_ascii hscan
    (.value hpercent htakes hwidth hprecision (v := .decimal x.toDecimal) rfl hrender')
    ((field.same_finiteDecimal .wide32 0 form x.negative c' e').isAscii ds hds) rest
  rw [List.append_assoc, List.append_assoc] at hformat hformat'
  refine ⟨R, R', r, r', hformat, hformat', ?_⟩
  rw [← hagree, hcs, hds]
  constructor
  · rintro rfl
    rw [← hdecode, ← hdecode']
  · intro hequal
    obtain rfl := Except.ok.inj hequal
    exact Except.ok.inj (hencode.symm.trans hencode')

/-- A half is written with an exponent, in capitals and in a field with a width. -/
theorem alike_iff_half :
    let f : Formatter := { container := .chars, template := Chars.ofString "%012.3E" }
    let x := Double.ofBits 0x3FE0000000000000
    ∃ R r r', f.format [] [.float x] = (.ok R, r) ∧
      f.format [] [.decimal x.toDecimal] = (.ok R, r') := by
  intro f x
  let s : Specifier := {
    kind := .float .exponent true
    flags := { zero := true }
    width := some (.number 12)
    precision := some (.number 3)
    offset := some 0 }
  have hscan : Scan.ofChars f.template = { tokens := [.specifier s], failure := none } := by
    decide +kernel
  have hsignificand : x.significand = 2 ^ 52 := by decide
  have hexponent : x.exponent = -53 := by decide
  have hmagnitude : x.magnitude = 5 * 10 ^ (-1 : ℤ) := by
    rw [Double.magnitude, hsignificand, hexponent]
    norm_num
  obtain ⟨R, R', r, r', hformat, hformat', hiff⟩ :=
    @alike_iff f s [] [] [] [] (some (12 : ℕ)) (some (3 : ℕ)) .exponent true x hscan rfl (by decide)
      rfl (.number 12) (.number 3) (by simp) (by simp) (by decide)
      ⟨5, -1, by decide, hmagnitude⟩
  obtain rfl := hiff.2 fun h => by norm_num [hmagnitude] at h
  exact ⟨R, r, r', hformat, hformat'⟩

/-- Zero is written with two exponents. -/
theorem not_alike : ¬∀ x : Double, x.isFinite →
    (∃ (k : ℕ) (q : ℤ), k < 10 ^ Decimal.precision ∧ x.magnitude = k * 10 ^ q) →
    (({ container := .chars, template := Chars.ofString "%e" } : Formatter).format []
      [.float x]).1 =
    (({ container := .chars, template := Chars.ofString "%e" } : Formatter).format []
      [.decimal x.toDecimal]).1 := by
  intro h
  have hmagnitude : (Double.ofBits 0).magnitude = (0 : ℕ) * 10 ^ (0 : ℤ) := by
    have hsignificand : (Double.ofBits 0).significand = 0 := by decide
    rw [Double.magnitude, hsignificand, Nat.cast_zero, zero_mul, zero_mul]
  have hzero : (({ container := .chars, template := Chars.ofString "%e" } : Formatter).format []
      [.float (Double.ofBits 0)]).1 = .ok (.ofString "0.000000e+00") := by
    decide +kernel
  have hdecimal : (({ container := .chars, template := Chars.ofString "%e" } : Formatter).format []
      [.decimal (Double.ofBits 0).toDecimal]).1 = .ok (.ofString "0.000000e+06") := by
    decide +kernel
  have hequal := h (Double.ofBits 0) (by decide) ⟨0, 0, by decide, hmagnitude⟩
  rw [hzero, hdecimal] at hequal
  exact absurd hequal (by decide +kernel)

end Formatter

end UnitText
