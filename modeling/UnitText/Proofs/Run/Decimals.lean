import UnitText.Proofs.Number.Decimal
import UnitText.Proofs.Numeral.Figures
import UnitText.Proofs.Run.ReadBack
import UnitText.Proofs.Run.Encoding
import UnitText.Proofs.Value.Currency

/-!
# Decimal numbers that are formatted

A conversion in decimal form takes the sign off a decimal number by arithmetic, which rounds to the
digits that it keeps, and rounds the result once more to the places that are shown. So a number with
no more digits than arithmetic keeps is rounded once, and is written exactly if there are places for
all its digits. A number with more digits is rounded twice, and one that is too large for arithmetic
is not written at all.

## Main definitions

- `FloatForm.lastPlace` — the last place that is shown of a number
- `Field.decimalChars` — what is written of a decimal number

## Main statements

- `Field.exists_shows_figures`, `Field.exists_isWritten_decimalChars` — figures are numerals of the
  rounded number
- `Formatter.format_specifier_eq_error` — a template that is a single specifier that fails
- `Formatter.decimal_rounds` — what a decimal number is formatted as
-/

namespace UnitText

/-! ## Places -/

namespace FloatForm

/-- The places behind the first digit of a form with an exponent, or all places. -/
def places (form : FloatForm) (p : ℕ) : ℕ := if form = .general then max p 1 - 1 else p

/-- The power of ten of the last place that is shown of a number. -/
def lastPlace (form : FloatForm) (p : ℕ) (x : ℚ) : ℤ :=
  match form with
  | .exponent | .general => Int.log 10 x - form.places p
  | .fixed | .hex => -p

end FloatForm

namespace Field

variable {f : Field} {form : FloatForm} {negative : Bool} {c : ℕ} {e : ℤ}

/-- The figures of a decimal number are a literal of the number, rounded to the last place. -/
theorem exists_shows_figures (hform : form ≠ .hex) (c : ℕ) (e : ℤ) (p : ℕ) (zeroExponent : ℤ)
    (alternate : Bool) : ∃ l, (figures form c e p zeroExponent alternate).Shows l ∧
      RoundsAt (form.lastPlace p (c * 10 ^ e)) (c * 10 ^ e) l.value := by
  cases form with
  | fixed =>
    obtain ⟨l, hl, hround, -⟩ := Figures.exists_shows_fixed c e p
    exact ⟨l, hl, hround⟩
  | exponent => exact Figures.exists_shows_scientific c e p zeroExponent
  | general => exact Figures.exists_shows_general c e (by omega) alternate
  | hex => exact absurd rfl hform

/-- The precision of a conversion for which none, or a negative one, may be given. -/
def shownPrecision (precision : Option ℤ) : ℕ :=
  ((precision.filter (0 ≤ ·)).map Int.toNat).getD defaultPrecision

theorem precision_create (s : Specifier) (width precision : Option ℤ) (w : Width) (written : ℕ) :
    (create s width precision w written).precision =
      (precision.filter (0 ≤ ·)).map Int.toNat := by
  cases precision with
  | none => rfl
  | some n =>
    show (if n < 0 then none else some n.toNat) = _
    by_cases hn : n < 0
    · simp [hn]
    · have hle : 0 ≤ n := by omega
      simp [hn, hle]

/-- What is written of a decimal number without a width. -/
def decimalChars (f : Field) (form : FloatForm) (negative : Bool) (c : ℕ) (e : ℤ) (p : ℕ) : Chars :=
  f.signChars negative true ++
    f.cased ((figures form c e p (e + p) f.flags.alternate).chars f.flags.alternate)

theorem cased_nil (f : Field) : f.cased [] = [] := by
  unfold cased
  split <;> rfl

/-- The figures of a decimal number are written if their places are within bounds. -/
theorem finiteDecimal_eq_padFinite {p : ℕ} (hp : f.precision.getD defaultPrecision = p)
    (hplaces : form.places p ≤ Decimal.maxExponent) (negative : Bool) (c : ℕ) (e : ℤ) :
    f.finiteDecimal form negative c e = f.padFinite negative []
      ((figures form c e p (e + p) f.flags.alternate).chars f.flags.alternate) := by
  have hcast : (if form = .general then ((max p 1 : ℕ) - 1 : ℤ) else p) = form.places p := by
    unfold FloatForm.places
    split <;> omega
  rw [finiteDecimal, hp, hcast, Decimal.places_natCast hplaces]
  rfl

theorem finiteDecimal_eq (hwidth : f.width = 0) {p : ℕ}
    (hp : f.precision.getD defaultPrecision = p) (hplaces : form.places p ≤ Decimal.maxExponent)
    (negative : Bool) (c : ℕ) (e : ℤ) :
    f.finiteDecimal form negative c e = .ok (f.decimalChars form negative c e p) := by
  have hbare : f.bare = f := by rw [bare, ← hwidth]
  have hpad := f.padNumber_bare (f.signChars negative true)
    (f.cased ((figures form c e p (e + p) f.flags.alternate).chars f.flags.alternate)) f.flags.zero
  rw [hbare] at hpad
  rw [finiteDecimal_eq_padFinite hp hplaces, padFinite, cased_nil, List.append_nil]
  exact hpad

/-- What is written is a numeral of the rounded number. -/
theorem exists_isWritten_decimalChars (hform : form ≠ .hex) (f : Field) (negative : Bool) (c : ℕ)
    (e : ℤ) (p : ℕ) : ∃ n : Numeral, n.IsWritten .any (f.decimalChars form negative c e p) ∧
      n.negative = negative ∧
      RoundsAt (form.lastPlace p (c * 10 ^ e)) (c * 10 ^ e) n.literal.value := by
  obtain ⟨l, hl, hround⟩ := exists_shows_figures hform c e p (e + p) f.flags.alternate
  have hbody : l.IsWritten .any (f.cased
      ((figures form c e p (e + p) f.flags.alternate).chars f.flags.alternate)) := by
    unfold cased points
    split
    · exact hl.isWritten_map Figures.keepsFigures_toUpper rfl rfl _
    · exact hl.isWritten rfl rfl _
  refine ⟨{ negative, literal := .decimal l }, ?_, rfl, hround⟩
  have hwritten := Numeral.isWritten_any (f.isSign_signChars negative true) (.decimal hbody) 0 0
  rw [decimalChars]
  simpa [Chars.blanks] using hwritten

theorem not_isSurrogate_decimalChars (f : Field) (form : FloatForm) (negative : Bool) (c : ℕ)
    (e : ℤ) (p : ℕ) : ∀ x ∈ f.decimalChars form negative c e p, ¬x.IsSurrogate :=
  List.forall_mem_append.2 ⟨f.not_isSurrogate_signChars _ _, not_isSurrogate_points _⟩

/-- A floating-point conversion writes a decimal number as the number that it is. -/
theorem render_eq_decimal {upper : Bool} (hkind : f.spec.kind = .float form upper)
    (hform : form ≠ .hex) (d : Decimal) :
    f.render (.ofOther (.decimal d) .fixedPoint) = (do return .chars (← f.decimal form d)) := by
  have hcheck : Argument.check (.ofOther (.decimal d) .fixedPoint) f.spec = .ok () := by
    rw [Argument.check_eq_ok, hkind]
    rfl
  have hfloat : f.float form (.ofOther (.decimal d) .fixedPoint) = f.decimal form d := by
    rw [float, hcheck, ← fixedPoint_decimal hform]
    rfl
  rw [render, hkind]
  simp only [hfloat]

/-- A decimal number is written after its size was rounded to the digits that arithmetic keeps. -/
theorem render_decimal {upper : Bool} (hkind : f.spec.kind = .float form upper)
    (hform : form ≠ .hex) (hwidth : f.width = 0) {p : ℕ}
    (hp : f.precision.getD defaultPrecision = p) (hplaces : form.places p ≤ Decimal.maxExponent)
    {negative : Bool} {c c' : ℕ} {e e' : ℤ}
    (habs : (Decimal.finite negative c e).abs = .ok (.finite false c' e')) :
    f.render (.ofOther (.decimal (.finite negative c e)) .fixedPoint) =
      .ok (.chars (f.decimalChars form negative c' e' p)) := by
  rw [render_eq_decimal hkind hform]
  refine bind_eq_ok.2 ⟨_, (decimal_finite_eq_ok hform).2 ⟨c', e', habs, ?_⟩, rfl⟩
  exact finiteDecimal_eq hwidth hp hplaces negative c' e'

/-- If the size has no result, nothing is written. -/
theorem render_decimal_eq_error {upper : Bool} (hkind : f.spec.kind = .float form upper)
    (hform : form ≠ .hex) {failure : Failure}
    (habs : (Decimal.finite negative c e).abs = .error failure) :
    f.render (.ofOther (.decimal (.finite negative c e)) .fixedPoint) = .error failure := by
  have herror : f.decimal form (.finite negative c e) = .error failure := by
    cases form with
    | hex => exact absurd rfl hform
    | fixed | exponent | general =>
      simp only [decimal, habs]
      rfl
  rw [render_eq_decimal hkind hform, herror]
  rfl

end Field

namespace Formatter

variable {f : Formatter} {s : Specifier} {slots : Slots} {us rest : List Value}
  {precision : Option ℤ}

/-- A template that is a single specifier fails as its conversion does. -/
theorem format_specifier_eq_error {vs : List Value} {v : Value} {a : Argument} {width : Option ℤ}
    {failure : Failure}
    (hscan : Scan.ofChars f.template = { tokens := [.specifier s], failure := none })
    (htakes : s.kind.takes s.length) (hkind : s.kind ≠ .percent)
    (hwidth : Count.Reads s .width slots s.width vs width)
    (hprecision : Count.Reads s .precision slots s.precision us precision)
    (ha : (v.refresh slots).adapt = .ok a)
    (hrender : (Field.create s width precision f.width 0).render a = .error failure) :
    (f.format slots (vs ++ (us ++ v :: rest))).1 = .error failure := by
  have hshows := Run.shows_initial f.width slots (vs ++ (us ++ v :: rest))
  obtain ⟨r₁, hresolve, hr₁⟩ := hshows.exists_resolve hwidth rfl
  obtain ⟨r₂, hresolve', hr₂⟩ := hr₁.exists_resolve hprecision rfl
  obtain ⟨r₃, hnext, hr₃⟩ := hr₂.exists_nextArgument (s := s) rfl ha
  have hwritten : r₃.written = 0 := hr₃.written
  rw [← hwritten] at hrender
  obtain ⟨r', hconvert⟩ := Run.convert_eq_error (r := r₃) hrender
  have happly : Run.apply f.width s { pending := vs ++ (us ++ v :: rest), slots } =
      .error failure r' := by
    refine (Run.apply_eq_error rfl htakes).2 (.inr ⟨_, _, hresolve, .inr ⟨_, _, hresolve', ?_⟩⟩)
    rw [if_neg hkind]
    exact .inr ⟨a, r₃, hnext, hconvert⟩
  have htokens : (Scan.ofChars f.template).tokens = [] ++ .specifier s :: [] := by
    rw [hscan]
    rfl
  exact format_eq_error_of_step htokens rfl happly

/-- **Decimal numbers are rounded to the places that are shown**, after their size was rounded to
the digits that arithmetic keeps. The conversions in decimal form write a finite decimal number,
with a template that is a single one of them without a width, as a numeral. It has a minus if and
only if the number does. Its size is a number `w` rounded once, half to even, to the last place that
the precision asks for: so no digit of `w` is lost that has a place. And `w` is the number nearest
to the size that arithmetic keeps, which is the size itself if and only if arithmetic has room for
it. For the numbers that arithmetic has no result for, formatting fails. -/
theorem decimal_rounds {form : FloatForm} {upper : Bool}
    (hscan : Scan.ofChars f.template = { tokens := [.specifier s], failure := none })
    (hkind : s.kind = .float form upper) (hform : form ≠ .hex) (htakes : s.kind.takes s.length)
    (hwidth : s.width = none)
    (hprecision : Count.Reads s .precision slots s.precision us precision)
    (hplaces : form.places (Field.shownPrecision precision) ≤ Decimal.maxExponent) (negative : Bool)
    (c : ℕ) (e : ℤ) :
    (Decimal.overflowLimit ≤ c * 10 ^ e →
      (f.format slots (us ++ .decimal (.finite negative c e) :: rest)).1 =
        .error (.signal .overflow)) ∧
    ((c * 10 ^ e : ℚ) < Decimal.overflowLimit → ∃ w : ℚ,
      RoundsTo 10 Decimal.precision Decimal.minResultExponent (c * 10 ^ e) w ∧
      (w = c * 10 ^ e ↔ Decimal.IsKept (c * 10 ^ e)) ∧
      ∃ R r cs, f.format slots (us ++ .decimal (.finite negative c e) :: rest) = (.ok R, r) ∧
        R.decode = .ok cs ∧ ∃ n : Numeral, n.IsWritten .any cs ∧ n.negative = negative ∧
          RoundsAt (form.lastPlace (Field.shownPrecision precision) w) w n.literal.value ∧
          ∀ k : ℕ, w = k * 10 ^ form.lastPlace (Field.shownPrecision precision) w →
            n.literal.value = w) := by
  have hpercent : s.kind ≠ .percent := by simp [hkind]
  have hnone : Count.Reads s .width slots s.width [] none := by
    rw [hwidth]
    exact .none
  let field := Field.create s none precision f.width 0
  have hshown : field.precision.getD defaultPrecision = Field.shownPrecision precision :=
    congrArg (Option.getD · defaultPrecision) (Field.precision_create s none precision f.width 0)
  refine ⟨fun hlimit => ?_, fun hlimit => ?_⟩
  · have hrender := Field.render_decimal_eq_error (f := field) hkind hform
      (Decimal.abs_eq_error negative hlimit)
    exact format_specifier_eq_error hscan htakes hpercent hnone hprecision rfl hrender
  · obtain ⟨c', e', habs, hround, hkept⟩ := Decimal.exists_abs negative hlimit
    have hrender := Field.render_decimal (f := field) hkind hform rfl hshown hplaces habs
    have hout : s.Outputs f.width slots 0 ([] ++ (us ++ [.decimal (.finite negative c e)])) _ _ :=
      .value hpercent htakes hnone hprecision rfl hrender
    obtain ⟨R, hR, hdecode⟩ := Text.decode_encodeLike f.container
      (field.not_isSurrogate_decimalChars form negative c' e' (Field.shownPrecision precision))
    obtain ⟨r, hformat⟩ := exists_format_specifier hscan hout (.chars _) hR rest
    have hvalues : us ++ .decimal (.finite negative c e) :: rest =
        [] ++ (us ++ [.decimal (.finite negative c e)]) ++ rest := by simp
    obtain ⟨n, hn, hsign, hvalue⟩ := Field.exists_isWritten_decimalChars hform field negative c' e'
      (Field.shownPrecision precision)
    rw [hvalues]
    exact ⟨_, hround, hkept, R, r, _, hformat, hdecode, n, hn, hsign, hvalue,
      fun k hk => hvalue.eq_self hk⟩

/-- A tie goes to the even digit. -/
theorem decimal_rounds_tie : ∃ R r cs, ({ container := .chars, template := Chars.ofString "%.1E" } :
      Formatter).format [] [.decimal (.finite true 1250 (-2))] = (.ok R, r) ∧
    R.decode = .ok cs ∧ ∃ n : Numeral, n.IsWritten .any cs ∧ n.value = -12 := by
  let s : Specifier := {
    kind := .float .exponent true
    precision := some (.number 1)
    offset := some 0 }
  have hscan : Scan.ofChars (Chars.ofString "%.1E") =
      { tokens := [.specifier s], failure := none } := by decide +kernel
  have hx : ((1250 : ℕ) * 10 ^ (-2 : ℤ) : ℚ) = 25 / 2 := by norm_num
  have hlimit : ((1250 : ℕ) * 10 ^ (-2 : ℤ) : ℚ) < Decimal.overflowLimit := by
    refine Decimal.lt_overflowLimit ?_
    norm_num [Decimal.precision]
  obtain ⟨w, -, hkept, R, r, cs, hformat, hdecode, n, hn, hsign, hround, -⟩ :=
    (@decimal_rounds { container := .chars, template := _ } s [] [] [] (some (1 : ℕ)) .exponent true
      hscan rfl (by decide) rfl rfl (.number 1) (by decide) true 1250 (-2)).2 hlimit
  obtain rfl := hkept.2 ⟨1250, -2, by decide, by decide, rfl⟩
  refine ⟨R, r, cs, hformat, hdecode, n, hn, ?_⟩
  have hplace : FloatForm.lastPlace .exponent (Field.shownPrecision (some (1 : ℕ)))
      ((1250 : ℕ) * 10 ^ (-2 : ℤ)) = 0 := by
    rw [FloatForm.lastPlace, log_mul_zpow (by decide)]
    decide +kernel
  rw [hplace, hx] at hround
  have htie : RoundsAt 0 (25 / 2) 12 := ⟨12, .of_even (by norm_num [abs]) (by decide), by norm_num⟩
  rw [Numeral.value, hsign, if_pos rfl, hround.unique htie]

/-- The last of twenty-nine digits is lost. -/
theorem not_decimal_rounds : ¬∀ (c : ℕ) (e : ℤ) (R : Text) (cs : Chars) (n : Numeral),
    (({ container := .chars, template := Chars.ofString "%.0f" } : Formatter).format []
      [.decimal (.finite false c e)]).1 = .ok R →
    R.decode = .ok cs → n.IsWritten .any cs → RoundsAt 0 (c * 10 ^ e) n.literal.value := by
  intro h
  have hread : Numeral.read .any (Chars.ofString "12345678901234567890123456790") = .ok {
      negative := false
      literal := .decimal {
        whole := [1, 2, 3, 4, 5, 6, 7, 8, 9, 0, 1, 2, 3, 4, 5, 6, 7, 8, 9, 0, 1, 2, 3, 4, 5, 6, 7,
          9, 0]
        fraction := []
        exponent := 0 } } := by
    decide +kernel
  have hround := h 12345678901234567890123456789 0 (.ofString "12345678901234567890123456790") _ _
    (by decide +kernel) (Text.decode_ofChars _) (Numeral.read_sound hread)
  have hself := hround.eq_self (k := 12345678901234567890123456789) rfl
  norm_num [Literal.value, DecimalLiteral.value, digitsValue] at hself

end Formatter

end UnitText
