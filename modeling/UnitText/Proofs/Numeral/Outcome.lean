import UnitText.Proofs.Number.Double
import UnitText.Proofs.Numeral.Decimal

/-!
# What reading a number comes to

Reading a text as a number of a type gives a number of that type, or refuses the text as an invalid
number. Then an attempt to read it gives the number or none. There is one more outcome: the types
have no room for some of the numbers that can be written, and such a number fails in another way,
which an attempt does not catch.

## Main definitions

- `Target.Contains` — the values of a type of numbers
- `Target.Settles` — a number or a refusal, and what an attempt makes of it
- `Numeral.Exceeds` — the numerals that a type has no room for

## Main statements

- `Numeral.toValue_of_exceeds`, `Numeral.toValue_cases` — what numerals come to
- `tryParse_outcome` — what texts come to
-/

namespace UnitText

/-- The values of a type of numbers. -/
inductive Target.Contains : Target → Value → Prop where
  | integer (n : Int) : Contains .integer (.integer n)
  | float (x : Double) : Contains .float (.float x)
  | decimal (d : Decimal) : Contains .decimal (.decimal d)

/-- Reading gives a number of the type, or refuses an invalid one, of which an attempt makes
none. -/
inductive Target.Settles (target : Target) : Except Failure Value →
    Except Failure (Option Value) → Prop where
  | number {v : Value} (hv : target.Contains v) : Settles target (.ok v) (.ok (some v))
  | invalid {p : Problem} (hp : p.category = .invalidNumber) :
      Settles target (.error (.problem p)) (.ok none)

namespace Numeral

/-- The type has no room for what the numeral writes, and how it fails. -/
inductive Exceeds : Target → Numeral → Failure → Prop where
  /-- Integers that are written in decimal are decimal numbers first of all. -/
  | integer {n : Numeral} {l : DecimalLiteral} (hl : n.literal = .decimal l)
      (h : ¬n.literal.InRange) : Exceeds .integer n (.signal .invalidOperation)
  /-- A literal of another base is not made infinite. -/
  | float {n : Numeral} {value : ℕ} (hl : n.literal = .radix value)
      (h : Double.overflowLimit ≤ value) : Exceeds .float n (.range .float)
  | decimal {n : Numeral} (h : ¬n.literal.InRange) :
      Exceeds .decimal n (.signal .invalidOperation)
  /-- A minus is arithmetic, which has less room. -/
  | minus {n : Numeral} (h : n.literal.InRange) (hn : n.negative)
      (hlimit : Decimal.overflowLimit ≤ n.literal.value) : Exceeds .decimal n (.signal .overflow)

/-- The number of a type that a numeral is read as. `text` is the text that was read. -/
def toValue (target : Target) (text : Chars) (n : Numeral) : Except Failure Value :=
  match target with
  | .integer => .integer <$> n.toInteger text
  | .float => .float <$> n.toFloat
  | .decimal => .decimal <$> n.toDecimal
  | .text | .boolean => .error (.type (.notParsed target.typeName))

variable {n : Numeral} {target : Target}

theorem toFloat_radix {value : ℕ} (hl : n.literal = .radix value) : n.toFloat =
    match Double.ofRatio? n.negative value 1 with
    | some x => .ok x
    | none => .error (.range .float) := by
  obtain ⟨negative, literal⟩ := n
  cases hl
  rfl

/-- A numeral that the type has no room for fails, and not as an invalid number. -/
theorem toValue_of_exceeds {f : Failure} (h : n.Exceeds target f) (text : Chars) :
    n.toValue target text = .error f := by
  cases h with
  | @integer _ l hl h =>
    have hexact : Decimal.exact false l.coefficient l.power =
        .error (.signal .invalidOperation) := by
      rw [hl] at h
      exact Decimal.exact_eq_error h false
    rw [toValue, toInteger, hl]
    simp only [hexact]
    rfl
  | @float _ value hl h =>
    have hnone : Double.ofRatio? n.negative value 1 = none := by
      rw [Double.ofRatio?_eq_none_iff Nat.one_ne_zero, Nat.cast_one, div_one]
      exact h
    rw [toValue, toFloat_radix hl, hnone]
    rfl
  | decimal h =>
    rw [toValue, toDecimal_of_not_inRange h]
    rfl
  | minus h hn hlimit =>
    rw [toValue, (toDecimal_eq_error_iff h).2 ⟨hn, rfl, hlimit⟩]
    rfl

theorem isExact_of_not_exceeds (h : ∀ f, ¬n.Exceeds .integer f) : n.literal.IsExact := by
  cases hl : n.literal with
  | radix value => trivial
  | decimal l =>
    have hrange : n.literal.InRange := not_not.1 fun hrange => h _ (.integer hl hrange)
    rw [hl] at hrange
    exact ⟨_, Decimal.exact_eq_ok hrange false⟩

theorem toInteger_cases (text : Chars) (h : ∀ f, ¬n.Exceeds .integer f) :
    (∃ k, n.toInteger text = .ok k) ∨
      n.toInteger text = .error (.problem (.notInteger text)) := by
  have hexact := isExact_of_not_exceeds h
  by_cases hinteger : ∃ k : ℤ, n.value = k
  · obtain ⟨k, hk⟩ := hinteger
    exact .inl ⟨k, toInteger_eq_ok hexact hk text⟩
  · exact .inr (toInteger_eq_error hexact (not_exists.1 hinteger) text)

theorem toFloat_cases (h : ∀ f, ¬n.Exceeds .float f) : ∃ x, n.toFloat = .ok x := by
  cases hl : n.literal with
  | radix value =>
    rw [toFloat_radix hl]
    cases hratio : Double.ofRatio? n.negative value 1 with
    | some x => exact ⟨x, rfl⟩
    | none =>
      rw [Double.ofRatio?_eq_none_iff Nat.one_ne_zero, Nat.cast_one, div_one] at hratio
      exact absurd (.float hl hratio) (h _)
  | decimal l =>
    rw [toFloat, hl]
    exact ⟨_, rfl⟩

theorem toDecimal_of_not_exceeds (h : ∀ f, ¬n.Exceeds .decimal f) : ∃ d, n.toDecimal = .ok d := by
  have hrange : n.literal.InRange := not_not.1 fun hrange => h _ (.decimal hrange)
  cases hd : n.toDecimal with
  | ok d => exact ⟨d, rfl⟩
  | error f =>
    obtain ⟨hn, -, hlimit⟩ := (toDecimal_eq_error_iff hrange).1 hd
    exact absurd (.minus hrange hn hlimit) (h _)

/-- Every other numeral is read as a number of the type, or is no number of it. -/
theorem toValue_cases (hnumber : target.styles? ≠ none) (h : ∀ f, ¬n.Exceeds target f)
    (text : Chars) :
    (∃ v, target.Contains v ∧ n.toValue target text = .ok v) ∨
      n.toValue target text = .error (.problem (.notInteger text)) := by
  cases target with
  | integer =>
    rcases toInteger_cases text h with ⟨k, hk⟩ | herror
    · exact .inl ⟨_, .integer k, by rw [toValue, hk]; rfl⟩
    · exact .inr (by rw [toValue, herror]; rfl)
  | float =>
    obtain ⟨x, hx⟩ := toFloat_cases h
    exact .inl ⟨_, .float x, by rw [toValue, hx]; rfl⟩
  | decimal =>
    obtain ⟨d, hd⟩ := toDecimal_of_not_exceeds h
    exact .inl ⟨_, .decimal d, by rw [toValue, hd]; rfl⟩
  | text => exact absurd rfl hnumber
  | boolean => exact absurd rfl hnumber

end Numeral

/-! ## Texts -/

section

variable {target : Target} {default : Styles} {t : Text} {cs : Chars}

/-- All types of numbers are read in one way, up to what is made of the numeral. -/
theorem parse_text_eq (hnumber : target.styles? = some default) (styles? : Option Styles)
    (t : Text) : parse target styles? (.text t) =
      (do let cs ← t.decode; (← Numeral.ofChars (styles?.getD default) cs).toValue target cs) := by
  have hmap : ∀ {α : Type} (wrap : α → Value) (result : Chars → Numeral → Except Failure α)
      (s : Styles), (wrap <$> (do let cs ← t.decode; result cs (← Numeral.ofChars s cs))) =
        (do let cs ← t.decode; wrap <$> result cs (← Numeral.ofChars s cs)) := by
    intro α wrap result s
    simp only [map_bind]
  cases target with
  | integer => cases hnumber; exact hmap .integer (fun cs n => n.toInteger cs) _
  | float => cases hnumber; exact hmap .float (fun _ n => n.toFloat) _
  | decimal => cases hnumber; exact hmap .decimal (fun _ n => n.toDecimal) _
  | text => cases hnumber
  | boolean => cases hnumber

/-- **An attempt to read a number fails only for numbers that the type has no room for.** A text of
any container, under any styles, is read as a number of the type or refused as an invalid number,
and an attempt gives that number or none, unless the text writes a numeral that exceeds the type.
Then reading fails in another way, and the attempt fails in the same way. -/
theorem tryParse_outcome (hnumber : target.styles? = some default) (styles? : Option Styles)
    (ht : t.decode = .ok cs) :
    ((∀ (n : Numeral) (f : Failure), n.IsWritten (styles?.getD default) cs →
        ¬n.Exceeds target f) →
      target.Settles (parse target styles? (.text t)) (tryParse target styles? (.text t))) ∧
    ∀ (n : Numeral) (f : Failure), n.IsWritten (styles?.getD default) cs → n.Exceeds target f →
      parse target styles? (.text t) = .error f ∧ tryParse target styles? (.text t) = .error f := by
  rw [tryParse, parse_text_eq hnumber]
  constructor
  · intro hroom
    by_cases hwritten : ∃ n : Numeral, n.IsWritten (styles?.getD default) cs
    · obtain ⟨n, hn⟩ := hwritten
      rw [decode_ofChars_eq ht hn fun cs n => n.toValue target cs]
      rcases n.toValue_cases (by simp [hnumber]) (fun f => hroom n f hn) cs with
        ⟨v, hv, hvalue⟩ | herror
      · rw [hvalue]
        exact .number hv
      · rw [herror]
        exact .invalid rfl
    · obtain ⟨offset, herror⟩ :=
        decode_ofChars_eq_error ht hwritten fun cs n => n.toValue target cs
      rw [herror]
      exact .invalid rfl
  · intro n f hn hexceeds
    rw [decode_ofChars_eq ht hn fun cs n => n.toValue target cs,
      Numeral.toValue_of_exceeds hexceeds]
    refine ⟨rfl, ?_⟩
    -- none of these failures is a problem of the text
    cases hexceeds <;> rfl

/-- An integer with an exponent is read, but not with one that is out of range. -/
theorem tryParse_outcome_exponent :
    Target.integer.styles? = some .integer ∧
    (Text.ofString "1e30").decode = .ok (Chars.ofString "1e30") ∧
    Target.integer.Settles (parse .integer (some .any) (.text (.ofString "1e30")))
      (tryParse .integer (some .any) (.text (.ofString "1e30"))) ∧
    (Text.ofString "1e999999999999999999999").decode =
      .ok (Chars.ofString "1e999999999999999999999") ∧
    tryParse .integer (some .any) (.text (.ofString "1e999999999999999999999")) =
      .error (.signal .invalidOperation) := by
  have hdecode : (Text.ofString "1e30").decode = .ok (Chars.ofString "1e30") := by decide +kernel
  have hread : Numeral.read .any (Chars.ofString "1e30") = .ok {
      negative := false
      literal := .decimal { whole := [1], fraction := [], exponent := 30 } } := by
    decide +kernel
  have hdecode' : (Text.ofString "1e999999999999999999999").decode =
      .ok (Chars.ofString "1e999999999999999999999") := by
    decide +kernel
  have hread' : Numeral.read .any (Chars.ofString "1e999999999999999999999") = .ok {
      negative := false
      literal := .decimal {
        whole := [1], fraction := [], exponent := 999999999999999999999 } } := by
    decide +kernel
  refine ⟨rfl, hdecode, (tryParse_outcome rfl (some .any) hdecode).1 fun n f hn hexceeds => ?_,
    hdecode', ((tryParse_outcome rfl (some .any) hdecode').2 _ _ (Numeral.read_sound hread')
      (.integer rfl ?_)).2⟩
  · obtain rfl := hn.unique (Numeral.read_sound hread)
    cases hexceeds with
    | integer _ h => exact h ⟨by decide, by decide⟩
  · intro hrange
    exact absurd hrange.1 (by decide)

/-- An attempt to read a decimal number fails if there is a minus before a large one. -/
theorem not_tryParse_settles : ¬∀ (target : Target) (default : Styles) (styles? : Option Styles)
    (t : Text) (cs : Chars), target.styles? = some default → t.decode = .ok cs →
      target.Settles (parse target styles? (.text t)) (tryParse target styles? (.text t)) := by
  intro h
  have hsettles := h .decimal .groupedFloat none (.ofString "-1e1000000")
    (Chars.ofString "-1e1000000") rfl (by decide +kernel)
  have hparse : parse .decimal none (.text (.ofString "-1e1000000")) =
      .error (.signal .overflow) := by
    decide +kernel
  rw [hparse] at hsettles
  cases hsettles

end

end UnitText
