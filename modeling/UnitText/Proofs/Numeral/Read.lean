import UnitText.Numeral.Parse
import UnitText.Proofs.Numeral.Scanning
import Mathlib.Data.Nat.Digits.Defs

/-!
# Reading numerals

A text is read as the numeral that it writes. An integer that is written as a sign, a mark of its
base and digits is read again, also with blanks around it.

## Main definitions

- `Chars.blanks` — a run of blanks
- `IsSign` — what can stand before the digits of a number

## Main statements

- `Numeral.isWritten_any` — literals between blanks are numerals
- `decode_ofChars_eq`, `decode_ofChars_eq_error` — what texts are read as
- `parseInteger_decimal`, `parseInteger_radix` — integers between blanks
-/

namespace UnitText

/-- A run of blanks. -/
def Chars.blanks (n : Nat) : Chars := List.replicate n (CodePoint.ofChar ' ')

/-- What stands before the digits of a number: a minus if it is negative, and else nothing, a plus
or a blank. -/
inductive IsSign : Bool → Chars → Prop where
  | none : IsSign false []
  | plus : IsSign false [CodePoint.ofChar '+']
  | blank : IsSign false [CodePoint.ofChar ' ']
  | minus : IsSign true [CodePoint.ofChar '-']

variable {base n : Nat} {cs : Chars}

open Chars

theorem Chars.isWhite_blanks (k : Nat) : (blanks k).IsWhite true := by
  refine ⟨fun c hc => ?_, fun _ => rfl⟩
  obtain rfl := List.eq_of_mem_replicate hc
  decide

namespace Literal

/-- Digits are a decimal literal without places and exponent. -/
theorem isWritten_decimal (h : radixValue? 10 cs = some n) : ∃ ds, digitsValue 10 ds = n ∧
    IsWritten .any (.decimal { whole := ds, fraction := [], exponent := 0 }) cs := by
  obtain ⟨ds, hds, hne, hvalue⟩ := radixValue?_eq_some.1 h
  have hwhole : DecimalLiteral.WritesWhole .any ds cs :=
    .digits hne (map_digit?_of_radixDigit? hds)
  exact ⟨ds, hvalue, .decimal ⟨cs, [], (List.append_nil cs).symm, .whole hwhole, .none⟩⟩

/-- A mark and digits of its base are a literal. -/
theorem isWritten_radix {mark : Char} (hmark : radixOf? .any (CodePoint.ofChar mark) = some base)
    (h : radixValue? base cs = some n) :
    IsWritten .any (.radix n) (CodePoint.ofChar '0' :: CodePoint.ofChar mark :: cs) := by
  obtain ⟨ds, hds, hne, rfl⟩ := radixValue?_eq_some.1 h
  exact .radix (radixOf?_eq_some_iff.1 hmark) hne hds

end Literal

namespace Numeral

/-- A literal with a sign, between blanks. -/
theorem isWritten_any {negative : Bool} {sign body : Chars} {literal : Literal}
    (hsign : IsSign negative sign) (hbody : literal.IsWritten .any body) (i j : Nat) :
    IsWritten .any { negative, literal } (blanks i ++ (sign ++ (body ++ blanks j))) := by
  have htrailing := isWhite_blanks j
  cases hsign with
  | none =>
    exact ⟨_, [], body, _, rfl, isWhite_blanks i, .none, fun _ => rfl, hbody, htrailing⟩
  | plus => exact ⟨_, _, body, _, rfl, isWhite_blanks i, .plus, fun _ => rfl, hbody, htrailing⟩
  | minus => exact ⟨_, _, body, _, rfl, isWhite_blanks i, .minus, fun _ => rfl, hbody, htrailing⟩
  | blank =>
    -- the blank is one more
    have hblank : blanks i ++ ([CodePoint.ofChar ' '] ++ (body ++ blanks j)) =
        blanks (i + 1) ++ ([] ++ (body ++ blanks j)) := by
      simp only [blanks, List.replicate_succ', List.append_assoc, List.nil_append]
    exact ⟨_, [], body, _, hblank, isWhite_blanks (i + 1), .none, fun _ => rfl, hbody, htrailing⟩

/-- A decimal literal without places is an integer, also if it is long. -/
theorem toInteger_decimal {negative : Bool} {ds : List Nat} (text : Chars)
    (hds : digitsValue 10 ds < 10 ^ 20) :
    toInteger text
        { negative, literal := .decimal { whole := ds, fraction := [], exponent := 0 } } =
      .ok (if negative then -(digitsValue 10 ds : Int) else digitsValue 10 ds) := by
  have hexact : Decimal.exact false (digitsValue 10 ds) 0 =
      .ok (.finite false (digitsValue 10 ds) 0) := by
    have hlength : digitCount (digitsValue 10 ds) ≤ 20 := Nat.repr_length _ _ (by decide) hds
    have hmax : Decimal.maxExponent = 999999999999999999 := rfl
    have hmin : Decimal.minExponent = -1999999999999999997 := rfl
    rw [Decimal.exact, if_neg (by omega)]
  have hintegral : Decimal.IsIntegral (digitsValue 10 ds) 0 := .inr (.inl (Int.le_refl 0))
  have hvalue : Decimal.integral (digitsValue 10 ds) 0 = digitsValue 10 ds := by
    simp only [Decimal.integral]
    split
    · next hzero => rw [hzero]
    · simp
  simp [toInteger, DecimalLiteral.coefficient, DecimalLiteral.power, hexact, hintegral, hvalue,
    signed, Bind.bind, Except.bind, Pure.pure, Except.pure]

end Numeral

section

variable {negative : Bool} {sign : Chars} {t : Text} {i j : Nat}

/-- A text that writes a numeral is read as what is made of that numeral. -/
theorem decode_ofChars_eq {α : Type} {numeral : Numeral} {s : Styles} (ht : t.decode = .ok cs)
    (h : numeral.IsWritten s cs) (result : Chars → Numeral → Except Failure α) :
    (do let cs ← t.decode; result cs (← Numeral.ofChars s cs)) = result cs numeral := by
  refine (congrArg (· >>= _) ht).trans ?_
  simp only [Bind.bind, Except.bind, Numeral.ofChars, Numeral.read_complete h]

/-- A text that writes no numeral is refused, whatever is made of numerals. -/
theorem decode_ofChars_eq_error {α : Type} {s : Styles} (ht : t.decode = .ok cs)
    (h : ¬∃ n : Numeral, n.IsWritten s cs) (result : Chars → Numeral → Except Failure α) :
    ∃ offset, (do let cs ← t.decode; result cs (← Numeral.ofChars s cs)) =
      .error (.problem (.notNumber cs offset)) := by
  cases hread : Numeral.read s cs with
  | ok n => exact absurd ⟨n, Numeral.read_sound hread⟩ h
  | error offset =>
    refine ⟨offset, (congrArg (· >>= _) ht).trans ?_⟩
    simp only [Bind.bind, Except.bind, Numeral.ofChars, hread]

/-- A text is read as the integer that its numeral writes. -/
theorem parseInteger_eq {numeral : Numeral} {s : Styles} (ht : t.decode = .ok cs)
    (h : numeral.IsWritten s cs) : parseInteger s t = numeral.toInteger cs :=
  decode_ofChars_eq ht h fun cs n => n.toInteger cs

/-- A text is read as the decimal number that its numeral writes. -/
theorem parseDecimal_eq {numeral : Numeral} {s : Styles} (ht : t.decode = .ok cs)
    (h : numeral.IsWritten s cs) : parseDecimal s t = numeral.toDecimal :=
  decode_ofChars_eq ht h fun _ n => n.toDecimal

/-- Decimal digits are read as an integer. -/
theorem parseInteger_decimal (hsign : IsSign negative sign) (h : radixValue? 10 cs = some n)
    (hn : n < 10 ^ 20) (ht : t.decode = .ok (blanks i ++ (sign ++ (cs ++ blanks j)))) :
    parseInteger .any t = .ok (if negative then -(n : Int) else n) := by
  obtain ⟨ds, rfl, hliteral⟩ := Literal.isWritten_decimal h
  rw [parseInteger_eq ht (Numeral.isWritten_any hsign hliteral i j), Numeral.toInteger_decimal _ hn]

/-- Digits of another base with its mark are read as an integer. -/
theorem parseInteger_radix {mark : Char}
    (hmark : Literal.radixOf? .any (CodePoint.ofChar mark) = some base)
    (h : radixValue? base cs = some n)
    (ht : t.decode = .ok (blanks i ++
      (CodePoint.ofChar '0' :: CodePoint.ofChar mark :: (cs ++ blanks j)))) :
    parseInteger .any t = .ok n := by
  have hliteral := Literal.isWritten_radix hmark h
  rw [parseInteger_eq ht (Numeral.isWritten_any .none hliteral i j)]
  rfl

end

end UnitText
