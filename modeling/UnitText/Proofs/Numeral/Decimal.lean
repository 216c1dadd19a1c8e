import UnitText.Proofs.Number.Decimal
import UnitText.Proofs.Numeral.Exact

/-!
# Decimal numbers that numerals write

A numeral is read as the decimal number that it writes, if its exponents are in range. A minus sign
is applied by arithmetic: the numbers that are written with one are rounded to the digits that
arithmetic keeps, and the largest of them are not read at all. So the text with a minus before it is
read as the opposite number exactly for the numbers with no more digits than that.

## Main definitions

- `Literal.InRange` — the literal is a decimal number
- `Chars.IsUnsigned` — there is neither white space nor a sign in front

## Main statements

- `Numeral.toDecimal_of_nonneg`, `Numeral.toDecimal_of_negative` — what numerals are read as
- `Numeral.IsWritten.minus` — a minus before an unsigned text
- `parse_decimal_denotes_iff` — the texts that are read exactly
-/

namespace UnitText

namespace Literal

/-- All digits of a literal as one number. -/
def coefficient : Literal → ℕ
  | radix n => n
  | decimal l => l.coefficient

/-- The power of ten of the last digit of a literal. -/
def power : Literal → ℤ
  | radix _ => 0
  | decimal l => l.power

theorem value_eq (l : Literal) : l.value = l.coefficient * 10 ^ l.power := by
  cases l with
  | radix n => rw [value, coefficient, power, zpow_zero, mul_one]
  | decimal l => exact l.value_eq

/-- The literal is a decimal number: its exponents are those of one. -/
def InRange (l : Literal) : Prop := Decimal.InRange l.coefficient l.power

end Literal

namespace Numeral

variable {n : Numeral}

theorem value_of_nonneg (hn : n.negative = false) : n.value = n.literal.value := by
  rw [value, hn]
  rfl

theorem value_of_negative (hn : n.negative = true) : n.value = -n.literal.value := by
  rw [value, hn]
  rfl

theorem toDecimal_eq (n : Numeral) : n.toDecimal = do
    let d ← Decimal.exact false n.literal.coefficient n.literal.power
    if n.negative then d.neg else return d := by
  obtain ⟨negative, literal⟩ := n
  cases literal <;> rfl

theorem toDecimal_of_not_inRange (h : ¬n.literal.InRange) :
    n.toDecimal = .error (.signal .invalidOperation) := by
  rw [toDecimal_eq, Decimal.exact_eq_error h]
  rfl

/-- Without a minus the parts of the literal are those of the number. -/
theorem toDecimal_of_nonneg (h : n.literal.InRange) (hn : n.negative = false) :
    n.toDecimal = .ok (.finite false n.literal.coefficient n.literal.power) := by
  rw [toDecimal_eq, Decimal.exact_eq_ok h, hn]
  rfl

theorem toDecimal_of_negative (h : n.literal.InRange) (hn : n.negative = true) :
    n.toDecimal = (Decimal.finite false n.literal.coefficient n.literal.power).neg := by
  rw [toDecimal_eq, Decimal.exact_eq_ok h, hn]
  rfl

/-- A numeral with a minus is refused if it is too large for arithmetic. -/
theorem toDecimal_eq_error_iff (h : n.literal.InRange) {f : Failure} : n.toDecimal = .error f ↔
    n.negative ∧ f = .signal .overflow ∧ Decimal.overflowLimit ≤ n.literal.value := by
  cases hn : n.negative with
  | false =>
    rw [toDecimal_of_nonneg h hn]
    exact ⟨nofun, nofun⟩
  | true =>
    rw [toDecimal_of_negative h hn, Decimal.neg_eq_error_iff, ← Literal.value_eq]
    exact (and_iff_right rfl).symm

theorem toDecimal_cases (h : n.literal.InRange) :
    if n.negative ∧ Decimal.overflowLimit ≤ n.literal.value then
      n.toDecimal = .error (.signal .overflow)
    else ∃ d, n.toDecimal = .ok d := by
  split
  · next hlarge => exact (toDecimal_eq_error_iff h).2 ⟨hlarge.1, rfl, hlarge.2⟩
  · next hlarge =>
    cases hd : n.toDecimal with
    | ok d => exact ⟨d, rfl⟩
    | error f =>
      obtain ⟨hn, -, hlimit⟩ := (toDecimal_eq_error_iff h).1 hd
      exact absurd ⟨hn, hlimit⟩ hlarge

/-- The decimal number is the one that the numeral writes, unless a minus has rounded it. -/
theorem denotes_iff_of_toDecimal (h : n.literal.InRange) {d : Decimal} (hd : n.toDecimal = .ok d) :
    d.Denotes n.value ↔ (n.negative → Decimal.IsKept n.literal.value) := by
  cases hn : n.negative with
  | false =>
    rw [toDecimal_of_nonneg h hn] at hd
    obtain rfl := Except.ok.inj hd
    refine ⟨fun _ => nofun, fun _ => ⟨_, _, _, rfl, ?_⟩⟩
    rw [value_of_nonneg hn, Literal.value_eq]
    rfl
  | true =>
    rw [toDecimal_of_negative h hn] at hd
    rw [value_of_negative hn, Literal.value_eq, Decimal.neg_denotes_iff hd]
    exact ⟨fun hkept _ => hkept, fun hkept => hkept rfl⟩

/-- Whatever is read is as near to what the numeral writes as arithmetic can be. -/
theorem nearest_of_toDecimal (h : n.literal.InRange) {d : Decimal} (hd : n.toDecimal = .ok d) :
    ∃ x : ℚ, d.Denotes x ∧ ∀ y, Decimal.IsKept y → |n.value - x| ≤ |n.literal.value - y| := by
  cases hn : n.negative with
  | false =>
    refine ⟨n.value, (denotes_iff_of_toDecimal h hd).2 (by simp [hn]), fun y _ => ?_⟩
    rw [sub_self, abs_zero]
    exact abs_nonneg _
  | true =>
    rw [toDecimal_of_negative h hn] at hd
    obtain ⟨w, hw, -, hnearest⟩ := Decimal.denotes_of_neg hd
    refine ⟨-w, hw, fun y hy => ?_⟩
    have hmirror : n.value - -w = -(n.literal.value - w) := by
      rw [value_of_negative hn]
      ring
    rw [hmirror, abs_neg, Literal.value_eq]
    exact hnearest y hy

end Numeral

/-! ## A minus before a text -/

/-- The text begins with neither white space nor a sign. -/
def Chars.IsUnsigned (cs : Chars) : Prop :=
  ∀ c ∈ cs.head?, ¬c.isWhiteSpace ∧ c ≠ CodePoint.ofChar '+' ∧ c ≠ CodePoint.ofChar '-'

namespace Numeral.IsWritten

variable {s : Styles} {n : Numeral} {cs : Chars}

/-- An unsigned text writes its literal only, with white space behind it. -/
theorem body (h : n.IsWritten s cs) (hcs : cs.IsUnsigned) : n.negative = false ∧
    ∃ body trailing : Chars, cs = body ++ trailing ∧ n.literal.IsWritten s body ∧
      trailing.IsWhite s.trailingWhite := by
  obtain ⟨white, sign, body, trailing, rfl, hwhite, hsign, -, hbody, htrailing⟩ := h
  cases white with
  | cons c white => exact absurd (hwhite.1 c List.mem_cons_self) (hcs c rfl).1
  | nil =>
    revert hsign
    generalize n.negative = negative
    intro hsign
    cases hsign with
    | none => exact ⟨rfl, body, trailing, rfl, hbody, htrailing⟩
    | plus => exact absurd rfl (hcs _ rfl).2.1
    | minus => exact absurd rfl (hcs _ rfl).2.2

/-- A minus before an unsigned text is the sign of its numeral. -/
theorem minus (h : n.IsWritten s cs) (hcs : cs.IsUnsigned) (hs : s.leadingSign) :
    IsWritten s { n with negative := true } (CodePoint.ofChar '-' :: cs) := by
  obtain ⟨-, body, trailing, rfl, hbody, htrailing⟩ := h.body hcs
  exact ⟨[], _, body, trailing, rfl, ⟨nofun, nofun⟩, .minus, fun _ => hs, hbody, htrailing⟩

end Numeral.IsWritten

/-! ## Texts that are decimal numbers -/

section

variable {t : Text} {cs : Chars} {s : Styles}

theorem parse_decimal_eq (s : Styles) (t : Text) :
    parse .decimal (some s) (.text t) = Value.decimal <$> parseDecimal s t := rfl

/-- A numeral in range is read, unless it has a minus and is too large for arithmetic. -/
theorem parse_decimal_cases {n : Numeral} (ht : t.decode = .ok cs) (hn : n.IsWritten s cs)
    (hrange : n.literal.InRange) :
    if n.negative ∧ Decimal.overflowLimit ≤ n.literal.value then
      parse .decimal (some s) (.text t) = .error (.signal .overflow)
    else ∃ d, parse .decimal (some s) (.text t) = .ok (.decimal d) ∧ n.toDecimal = .ok d := by
  have hcases := n.toDecimal_cases hrange
  rw [parse_decimal_eq, parseDecimal_eq ht hn]
  split at hcases
  · next hlarge =>
    rw [if_pos hlarge, hcases]
    rfl
  · next hlarge =>
    obtain ⟨d, hd⟩ := hcases
    rw [if_neg hlarge, hd]
    exact ⟨d, rfl, rfl⟩

/-- A text that is read writes a numeral that is in range. -/
theorem exists_toDecimal_of_parse (ht : t.decode = .ok cs) {d : Decimal}
    (h : parse .decimal (some s) (.text t) = .ok (.decimal d)) :
    ∃ n : Numeral, n.IsWritten s cs ∧ n.literal.InRange ∧ n.toDecimal = .ok d := by
  rw [parse_decimal_eq] at h
  obtain ⟨d', hd, hvalue⟩ := bind_eq_ok.1 h
  obtain rfl := Value.decimal.inj (pure_eq_ok.1 hvalue)
  by_cases hwritten : ∃ n : Numeral, n.IsWritten s cs
  · obtain ⟨n, hn⟩ := hwritten
    rw [parseDecimal_eq ht hn] at hd
    refine ⟨n, hn, ?_, hd⟩
    by_contra hrange
    rw [Numeral.toDecimal_of_not_inRange hrange] at hd
    cases hd
  · obtain ⟨offset, herror⟩ := decode_ofChars_eq_error ht hwritten fun _ n => n.toDecimal
    cases hd.symm.trans herror

/-- **Decimal numbers are read exactly, but for the minus.** A text of any container, under any
styles, that is read as a decimal number writes a numeral of its grammar. The two are the same
number if and only if the numeral has no minus, or no more digits than arithmetic keeps; otherwise
no number with so few digits is nearer. A numeral in range is always read, except with a minus from
the limit of arithmetic on. And if an unsigned text is read as `x`, the text with a minus before it
is read as `-x` if and only if `x` has no more digits than arithmetic keeps. -/
theorem parse_decimal_denotes_iff (s : Styles) (ht : t.decode = .ok cs) :
    (∀ d : Decimal, parse .decimal (some s) (.text t) = .ok (.decimal d) →
      ∃ n : Numeral, n.IsWritten s cs ∧ n.literal.InRange ∧
        (d.Denotes n.value ↔ (n.negative → Decimal.IsKept n.literal.value)) ∧
        ∃ x : ℚ, d.Denotes x ∧ ∀ y, Decimal.IsKept y → |n.value - x| ≤ |n.literal.value - y|) ∧
    (∀ n : Numeral, n.IsWritten s cs → n.literal.InRange →
      if n.negative ∧ Decimal.overflowLimit ≤ n.literal.value then
        parse .decimal (some s) (.text t) = .error (.signal .overflow)
      else ∃ d, parse .decimal (some s) (.text t) = .ok (.decimal d)) ∧
    (s.leadingSign → cs.IsUnsigned → ∀ t' : Text, t'.decode = .ok (CodePoint.ofChar '-' :: cs) →
      ∀ d : Decimal, parse .decimal (some s) (.text t) = .ok (.decimal d) →
      ∃ x : ℚ, d.Denotes x ∧
        if Decimal.overflowLimit ≤ x then
          parse .decimal (some s) (.text t') = .error (.signal .overflow)
        else ∃ d', parse .decimal (some s) (.text t') = .ok (.decimal d') ∧
          (d'.Denotes (-x) ↔ Decimal.IsKept x)) := by
  refine ⟨fun d hd => ?_, fun n hn hrange => ?_, fun hs hcs t' ht' d hd => ?_⟩
  · obtain ⟨n, hn, hrange, hd⟩ := exists_toDecimal_of_parse ht hd
    exact ⟨n, hn, hrange, Numeral.denotes_iff_of_toDecimal hrange hd,
      Numeral.nearest_of_toDecimal hrange hd⟩
  · have hcases := parse_decimal_cases ht hn hrange
    split
    · next hlarge => rwa [if_pos hlarge] at hcases
    · next hlarge =>
      rw [if_neg hlarge] at hcases
      obtain ⟨d, hd, -⟩ := hcases
      exact ⟨d, hd⟩
  · obtain ⟨n, hn, hrange, hd⟩ := exists_toDecimal_of_parse ht hd
    have hnonneg := (hn.body hcs).1
    have hx : d.Denotes n.literal.value := by
      rw [← Numeral.value_of_nonneg hnonneg, Numeral.denotes_iff_of_toDecimal hrange hd, hnonneg]
      exact nofun
    refine ⟨n.literal.value, hx, ?_⟩
    -- the literal is the same behind the minus
    have hcases := parse_decimal_cases ht' (hn.minus hcs hs) hrange
    split
    · next hlarge => rwa [if_pos ⟨rfl, hlarge⟩] at hcases
    · next hlarge =>
      rw [if_neg fun h => hlarge h.2] at hcases
      obtain ⟨d', hparse, hd'⟩ := hcases
      have hiff := Numeral.denotes_iff_of_toDecimal (n := { n with negative := true }) hrange hd'
      rw [Numeral.value_of_negative rfl] at hiff
      exact ⟨d', hparse, hiff.trans ⟨fun hkept => hkept rfl, fun hkept _ => hkept⟩⟩

/-- A short number keeps its value behind a minus. -/
theorem parse_decimal_denotes_iff_short :
    (Text.ofString "1,0٠0.25 ").decode = .ok (Chars.ofString "1,0٠0.25 ") ∧
    (Chars.ofString "1,0٠0.25 ").IsUnsigned ∧
    (Text.ofString "-1,0٠0.25 ").decode =
      .ok (CodePoint.ofChar '-' :: Chars.ofString "1,0٠0.25 ") ∧
    parse .decimal (some .groupedFloat) (.text (.ofString "1,0٠0.25 ")) =
      .ok (.decimal (.finite false 100025 (-2))) ∧
    (Decimal.finite false 100025 (-2)).Denotes 1000.25 ∧
    parse .decimal (some .groupedFloat) (.text (.ofString "-1,0٠0.25 ")) =
      .ok (.decimal (.finite true 100025 (-2))) ∧
    (Decimal.finite true 100025 (-2)).Denotes (-1000.25) := by
  have hdecode : (Text.ofString "1,0٠0.25 ").decode = .ok (Chars.ofString "1,0٠0.25 ") := by
    decide +kernel
  have hdecode' : (Text.ofString "-1,0٠0.25 ").decode =
      .ok (CodePoint.ofChar '-' :: Chars.ofString "1,0٠0.25 ") := by
    decide +kernel
  have hunsigned : (Chars.ofString "1,0٠0.25 ").IsUnsigned := by
    rintro _ ⟨⟩
    decide +kernel
  have hparse : parse .decimal (some .groupedFloat) (.text (.ofString "1,0٠0.25 ")) =
      .ok (.decimal (.finite false 100025 (-2))) := by
    decide +kernel
  have hparse' : parse .decimal (some .groupedFloat) (.text (.ofString "-1,0٠0.25 ")) =
      .ok (.decimal (.finite true 100025 (-2))) := by
    decide +kernel
  have hread : Numeral.read .groupedFloat (Chars.ofString "1,0٠0.25 ") = .ok {
      negative := false
      literal := .decimal { whole := [1, 0, 0, 0], fraction := [2, 5], exponent := 0 } } := by
    decide +kernel
  have hvalue : Numeral.value {
      negative := false
      literal := .decimal { whole := [1, 0, 0, 0], fraction := [2, 5], exponent := 0 } } =
      1000.25 := by
    norm_num [Numeral.value, Literal.value, DecimalLiteral.value, digitsValue]
  have hkept : Decimal.IsKept (1000.25 : ℚ) := by
    refine ⟨100025, -2, by decide, by decide, ?_⟩
    norm_num
  obtain ⟨hexact, -, hminus⟩ := parse_decimal_denotes_iff .groupedFloat hdecode
  obtain ⟨n, hn, -, hiff, -⟩ := hexact _ hparse
  obtain rfl := hn.unique (Numeral.read_sound hread)
  have hdenotes := hiff.2 fun hneg => absurd hneg Bool.false_ne_true
  rw [hvalue] at hdenotes
  obtain ⟨x, hx, hcases⟩ := hminus rfl hunsigned _ hdecode' _ hparse
  obtain rfl := hx.unique hdenotes
  refine ⟨hdecode, hunsigned, hdecode', hparse, hdenotes, hparse', ?_⟩
  split at hcases
  · cases hcases.symm.trans hparse'
  · obtain ⟨d, hd, hiff'⟩ := hcases
    obtain rfl := Value.decimal.inj (Except.ok.inj (hd.symm.trans hparse'))
    exact hiff'.2 hkept

/-- The last of twenty-nine digits is lost behind a minus. -/
theorem not_parse_decimal_denotes : ¬∀ (s : Styles) (t : Text) (cs : Chars) (n : Numeral)
    (d : Decimal), t.decode = .ok cs → n.IsWritten s cs → n.literal.InRange →
      parse .decimal (some s) (.text t) = .ok (.decimal d) → d.Denotes n.value := by
  intro h
  have hread : Numeral.read .float (Chars.ofString "-12345678901234567890123456789") = .ok {
      negative := true
      literal := .decimal {
        whole := [1, 2, 3, 4, 5, 6, 7, 8, 9, 0, 1, 2, 3, 4, 5, 6, 7, 8, 9, 0, 1, 2, 3, 4, 5, 6,
          7, 8, 9]
        fraction := []
        exponent := 0 } } := by
    decide +kernel
  have hdenotes := h .float (.ofString "-12345678901234567890123456789") _ _
    (.finite true 1234567890123456789012345679 1) (by decide +kernel) (Numeral.read_sound hread)
    ⟨by decide +kernel, by decide⟩ (by decide +kernel)
  have hrounded := hdenotes.unique ⟨_, _, _, rfl, rfl⟩
  rw [Numeral.value_of_negative rfl] at hrounded
  norm_num [Literal.value, DecimalLiteral.value, digitsValue] at hrounded

end

end UnitText
