import UnitText.Argument.Text
import UnitText.Proofs.Number.Shortest
import UnitText.Proofs.Numeral.Figures
import UnitText.Proofs.Numeral.Outcome

/-!
# Default texts of numbers

The default text of a number writes a numeral of the grammar that its type is read with, and that
numeral is read as the number again.

## Main statements

- `Integer.exists_isWritten_text` — the text of an integer is a numeral of it
- `Double.exists_isWritten_text` — the text of a finite floating-point number is one that reads back
- `parse_defaultText` — the default texts of numbers read back
-/

namespace UnitText

/-- A literal behind a minus or nothing. -/
theorem Numeral.isWritten_signed {s : Styles} (hs : s.leadingSign) (negative : Bool)
    {literal : Literal} {body : Chars} (h : literal.IsWritten s body) :
    IsWritten s { negative, literal }
      ((if negative then [CodePoint.ofChar '-'] else []) ++ body) := by
  have hwhite : ∀ allowed : Bool, Chars.IsWhite allowed [] := fun _ => ⟨nofun, nofun⟩
  refine ⟨[], _, body, [], by rw [List.append_nil, List.nil_append], hwhite _, ?_, fun _ => hs, h,
    hwhite _⟩
  cases negative with
  | false => exact .none
  | true => exact .minus

/-! ## Integers -/

namespace Integer

theorem ofString_text (v : ℤ) : Chars.ofString (text v) =
    (if v < 0 then [CodePoint.ofChar '-'] else []) ++
      (decimalDigits v.natAbs).map CodePoint.ofChar := by
  unfold text decimalDigits Chars.ofString
  split
  · rw [String.toList_append, List.map_append]
    rfl
  · rfl

/-- The text of an integer is a numeral of it, and one that is in range if it is not too long. -/
theorem exists_isWritten_text (v : ℤ) (hv : digitCount v.natAbs ≤ digitLimit) :
    ∃ n : Numeral, n.IsWritten .integer (Chars.ofString (text v)) ∧ n.literal.IsExact ∧
      n.value = v := by
  obtain ⟨ds, hds, hdigits⟩ := exists_radixDigits (by decide : 1 < 10) v.natAbs
  have hdecimal : decimalDigits v.natAbs = ds.map Nat.digitChar :=
    (decimalDigits_eq _).trans hdigits
  let l : DecimalLiteral := { whole := ds, fraction := [], exponent := 0 }
  have hcoefficient : l.coefficient = v.natAbs := by
    rw [DecimalLiteral.coefficient, List.append_nil, hds.value]
  have hpower : l.power = 0 := rfl
  refine ⟨{ negative := decide (v < 0), literal := .decimal l }, ?_, ?_, ?_⟩
  · rw [ofString_text, hdecimal]
    have hbody : l.IsWritten .integer ((ds.map Nat.digitChar).map CodePoint.ofChar) :=
      ⟨_, [], (List.append_nil _).symm, .whole (.digits hds.ne_nil (map_digit?_digitChar hds.lt)),
        .none⟩
    have hwritten := Numeral.isWritten_signed (s := .integer) rfl (decide (v < 0)) (.decimal hbody)
    simpa only [decide_eq_true_eq] using hwritten
  · refine ⟨_, Decimal.exact_eq_ok ⟨?_, ?_⟩ false⟩
    · rw [hcoefficient, hpower]
      have hmax : (digitLimit : ℤ) ≤ Decimal.maxExponent := by decide
      omega
    · rw [hpower]
      decide
  · have hliteral : l.value = v.natAbs := by
      rw [DecimalLiteral.value_eq, hcoefficient, hpower, zpow_zero, mul_one]
    rw [← Numeral.signed_eq { negative := decide (v < 0), literal := .decimal l } hliteral]
    congr 1
    rw [Numeral.signed]
    split
    · next hneg => have hneg := of_decide_eq_true hneg; omega
    · next hneg => have hneg := of_decide_eq_false (Bool.not_eq_true _ ▸ hneg); omega

end Integer

theorem Value.integerText_eq {v : ℤ} (hv : digitCount v.natAbs ≤ Integer.digitLimit) :
    integerText v = .ok (Integer.text v) := by
  have htext : Integer.text? v = some (Integer.text v) := if_pos (lt_pow_of_digitCount_le hv)
  unfold integerText
  split
  · next s hs => rw [Option.some.inj (hs.symm.trans htext)]
  · next hs => cases hs.symm.trans htext

theorem Value.defaultText_integer {v : ℤ} (hv : digitCount v.natAbs ≤ Integer.digitLimit) :
    (Value.integer v).defaultText = .ok (.chars (Chars.ofString (Integer.text v))) := by
  refine bind_eq_ok.2 ⟨{ family := .integer, value := .integer v }, rfl, ?_⟩
  simp only [Argument.text]
  exact bind_eq_ok.2 ⟨v, rfl, bind_eq_ok.2 ⟨_, integerText_eq hv, rfl⟩⟩

/-! ## Floating-point numbers -/

namespace Double

variable {x : Double}

theorem toList_text (hx : x.isFinite) : x.text.toList = (if x.negative then ['-'] else []) ++
    if x.significand = 0 then ['0', '.', '0']
    else layout (isPlain x.shortest.1 x.shortest.2) x.shortest.1 x.shortest.2 := by
  have hnumber : ¬x.isNaN := by
    intro hnan
    have hexponent : x.exponentBits = 2047 := eq_of_beq (Bool.and_eq_true _ _ ▸ hnan).1
    have hlt : x.exponentBits < 2047 := of_decide_eq_true hx
    omega
  have hfinite : ¬(!x.isFinite) = true := by simp [hx]
  rw [text, textWith, if_neg hnumber]
  simp only [if_neg hfinite, String.toList_ofList]
  split <;> rfl

/-- The text of zero is a literal of it. -/
theorem isWritten_zero {s : Styles} (hpoint : s.decimalPoint) (hexponent : s.exponent) :
    DecimalLiteral.IsWritten s { whole := [0], fraction := [0], exponent := 0 }
      (['0', '.', '0'].map CodePoint.ofChar) := by
  have hshows : Figures.Shows { whole := ['0'], fraction := ['0'] }
      { whole := [0], fraction := [0], exponent := 0 } :=
    ⟨rfl, rfl, rfl, by decide, by decide⟩
  exact hshows.isWritten hpoint hexponent false

/-- The text of a finite number is a numeral, and the number that this is read as. -/
theorem exists_isWritten_text {s : Styles} (hsign : s.leadingSign) (hpoint : s.decimalPoint)
    (hexponent : s.exponent) (hx : x.isFinite) :
    ∃ n : Numeral, n.IsWritten s (Chars.ofString x.text) ∧ n.toFloat = .ok x := by
  obtain ⟨l, hl, hself⟩ : ∃ l : DecimalLiteral,
      l.IsWritten s ((if x.significand = 0 then ['0', '.', '0']
        else layout (isPlain x.shortest.1 x.shortest.2) x.shortest.1 x.shortest.2).map
          CodePoint.ofChar) ∧
      ofDecimal x.negative l.coefficient l.power = x := by
    split
    · next hzero =>
      refine ⟨_, isWritten_zero hpoint hexponent, ?_⟩
      exact (ofDecimal_zero x.negative (-1)).trans (signed_zero_eq_self hzero)
    · next hzero =>
      obtain ⟨l, hl, hvalue⟩ := exists_isWritten_layout hpoint hexponent
        (isPlain x.shortest.1 x.shortest.2) (shortest_ne_zero hx hzero) x.shortest.2
      refine ⟨l, hl, ?_⟩
      rw [l.value_eq] at hvalue
      rw [ofDecimal_congr hvalue, ofDecimal_shortest hx hzero]
  refine ⟨{ negative := x.negative, literal := .decimal l }, ?_, congrArg Except.ok hself⟩
  have hwritten := Numeral.isWritten_signed hsign x.negative (.decimal hl)
  rw [Chars.ofString, toList_text hx, List.map_append]
  generalize x.negative = negative at hwritten ⊢
  cases negative with
  | false => exact hwritten
  | true => exact hwritten

end Double

theorem Value.defaultText_float (x : Double) :
    (Value.float x).defaultText = .ok (.chars (Chars.ofString x.text)) := rfl

/-! ## Reading default texts -/

/-- **The default text of a number reads back.** An integer of no more digits than are written is
read from its text, and so is every finite floating-point number, with the same bits: the zeros of
both signs and the numbers of least exponent are no exceptions. -/
theorem parse_defaultText :
    (∀ v : ℤ, digitCount v.natAbs ≤ Integer.digitLimit →
      ∃ cs, (Value.integer v).defaultText = .ok (.chars cs) ∧
        parse .integer none (.text (.ofChars cs)) = .ok (.integer v)) ∧
    ∀ x : Double, x.isFinite →
      ∃ cs, (Value.float x).defaultText = .ok (.chars cs) ∧
        parse .float none (.text (.ofChars cs)) = .ok (.float x) := by
  constructor
  · intro v hv
    obtain ⟨n, hn, hexact, hvalue⟩ := Integer.exists_isWritten_text v hv
    refine ⟨_, Value.defaultText_integer hv, ?_⟩
    rw [parse_text_eq rfl]
    refine (decode_ofChars_eq (Text.decode_ofChars _) hn fun cs n => n.toValue .integer cs).trans ?_
    rw [Numeral.toValue, Numeral.toInteger_eq_ok hexact hvalue]
    rfl
  · intro x hx
    obtain ⟨n, hn, hfloat⟩ :=
      x.exists_isWritten_text (s := .groupedFloat) rfl rfl rfl hx
    refine ⟨_, Value.defaultText_float x, ?_⟩
    rw [parse_text_eq rfl]
    refine (decode_ofChars_eq (Text.decode_ofChars _) hn fun cs n => n.toValue .float cs).trans ?_
    rw [Numeral.toValue, hfloat]
    rfl

/-- A negative integer, the negative zero and the least number of all. -/
theorem parse_defaultText_small :
    digitCount (-12345 : ℤ).natAbs ≤ Integer.digitLimit ∧
    (∃ cs, (Value.integer (-12345)).defaultText = .ok (.chars cs) ∧
      parse .integer none (.text (.ofChars cs)) = .ok (.integer (-12345))) ∧
    (Double.signed true 0).isFinite ∧
    (Value.float (.signed true 0)).defaultText = .ok (.chars (Chars.ofString "-0.0")) ∧
    parse .float none (.text (.ofString "-0.0")) = .ok (.float (.signed true 0)) ∧
    (Double.ofBits 1).isFinite ∧
    ∃ cs, (Value.float (.ofBits 1)).defaultText = .ok (.chars cs) ∧
      parse .float none (.text (.ofChars cs)) = .ok (.float (.ofBits 1)) := by
  have hdigits : digitCount (-12345 : ℤ).natAbs ≤ Integer.digitLimit := by decide
  have htext : (Value.float (.signed true 0)).defaultText =
      .ok (.chars (Chars.ofString "-0.0")) := by
    decide +kernel
  obtain ⟨cs, hcs, hzero⟩ := parse_defaultText.2 (Double.signed true 0) rfl
  obtain rfl := Piece.chars.inj (Except.ok.inj (hcs.symm.trans htext))
  exact ⟨hdigits, parse_defaultText.1 _ hdigits, rfl, htext, hzero, rfl, parse_defaultText.2 _ rfl⟩

end UnitText
