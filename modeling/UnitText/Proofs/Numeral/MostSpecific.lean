import UnitText.Proofs.Number.NearestDouble
import UnitText.Proofs.Numeral.Outcome
import UnitText.Proofs.Numeral.Styles

/-!
# The most specific value that a string writes

A string is tried as an integer with all styles, and as a floating-point number with those of such
numbers. The two attempts together recognise every numeral but those with places behind grouped
digits: an integer is recognised with groups, a floating-point number is not, and stays text.

## Main definitions

- `Chars.wordValue` — the value of a string that writes no number
- `Numeral.Recognized` — what comes of a string that writes a numeral in range

## Main statements

- `Numeral.IsWritten.ungrouped`, `Numeral.IsWritten.comma_not_mem` — numerals without groups
- `Numeral.recognized_autoValue` — what numerals are recognised as
- `autoValue_recognized` — what strings are recognised as
-/

namespace UnitText

/-! ## Numerals without groups -/

/-- The mark before a group of digits. -/
abbrev CodePoint.comma : CodePoint := CodePoint.ofChar ','

section

variable {s : Styles} {ds es : List Nat} {cs : Chars}

open CodePoint

theorem comma_not_mem_of_map {f : CodePoint → Option Nat} (hcomma : f comma = none)
    (h : cs.map f = ds.map some) : comma ∉ cs := by
  intro hmem
  obtain ⟨d, -, hd⟩ := List.mem_map.1 (h ▸ List.mem_map_of_mem hmem)
  exact Option.some_ne_none d (hd.trans hcomma)

theorem comma_not_mem_digits (h : cs.map digit? = ds.map some) : comma ∉ cs :=
  comma_not_mem_of_map (by decide +kernel) h

theorem Chars.IsWhite.comma_not_mem {allowed : Bool} (h : cs.IsWhite allowed) : comma ∉ cs := by
  intro hmem
  exact absurd (h.1 _ hmem) (by decide +kernel)

theorem WritesSign.comma_not_mem {negative : Bool} (h : WritesSign negative cs) : comma ∉ cs := by
  cases h <;> decide

namespace DecimalLiteral

theorem WritesWhole.comma_not_mem (hs : ¬s.thousands) (h : WritesWhole s ds cs) : comma ∉ cs := by
  cases h with
  | digits _ hds => exact comma_not_mem_digits hds
  | groups hthousands => exact absurd hthousands hs

theorem WritesMantissa.comma_not_mem (hs : ¬s.thousands) (h : WritesMantissa s ds es cs) :
    comma ∉ cs := by
  cases h with
  | whole h => exact h.comma_not_mem hs
  | point _ h hes =>
    rw [List.mem_append, List.mem_cons, not_or, not_or]
    exact ⟨h.comma_not_mem hs, by decide, comma_not_mem_digits hes⟩
  | fraction _ _ hes =>
    exact List.not_mem_cons_of_ne_of_not_mem (by decide) (comma_not_mem_digits hes)

theorem WritesExponent.comma_not_mem {n : Int} (h : WritesExponent s n cs) : comma ∉ cs := by
  cases h with
  | none => exact List.not_mem_nil
  | some _ hmark hsign _ hds =>
    rw [List.mem_cons, List.mem_append, not_or, not_or]
    refine ⟨?_, hsign.comma_not_mem, comma_not_mem_digits hds⟩
    rcases hmark with rfl | rfl <;> decide

theorem IsWritten.comma_not_mem {l : DecimalLiteral} (hs : ¬s.thousands) (h : l.IsWritten s cs) :
    comma ∉ cs := by
  obtain ⟨front, back, rfl, hmantissa, hexponent⟩ := h
  rw [List.mem_append, not_or]
  exact ⟨hmantissa.comma_not_mem hs, hexponent.comma_not_mem⟩

end DecimalLiteral

theorem Literal.IsWritten.comma_not_mem {l : Literal} (hs : ¬s.thousands) (h : l.IsWritten s cs) :
    comma ∉ cs := by
  cases h with
  | radix hmark _ hds =>
    rw [List.mem_cons, List.mem_cons, not_or, not_or]
    refine ⟨by decide, ?_, comma_not_mem_of_map rfl hds⟩
    cases hmark with
    | hex _ hmark => rcases hmark with rfl | rfl <;> decide
    | binary _ hmark => rcases hmark with rfl | rfl <;> decide
    | octal _ hmark => rcases hmark with rfl | rfl <;> decide
  | decimal h => exact h.comma_not_mem hs

/-- Without groups a numeral has no comma. -/
theorem Numeral.IsWritten.comma_not_mem {n : Numeral} (hs : ¬s.thousands) (h : n.IsWritten s cs) :
    comma ∉ cs := by
  obtain ⟨white, sign, body, trailing, rfl, hwhite, hsign, -, hbody, htrailing⟩ := h
  simp only [List.mem_append, not_or]
  exact ⟨hwhite.comma_not_mem, hsign.comma_not_mem, hbody.comma_not_mem hs,
    htrailing.comma_not_mem⟩

theorem DecimalLiteral.WritesWhole.ungrouped (h : WritesWhole s ds cs) (hcs : comma ∉ cs) :
    WritesWhole .float ds cs := by
  cases h with
  | digits hne hds => exact .digits hne hds
  | groups _ hne _ hds hgroups =>
    cases hgroups with
    | nil =>
      rw [List.append_nil, List.append_nil]
      exact .digits hne hds
    | cons => simp at hcs

theorem DecimalLiteral.WritesMantissa.ungrouped (h : WritesMantissa s ds es cs)
    (hcs : comma ∉ cs) : WritesMantissa .float ds es cs := by
  cases h with
  | whole h => exact .whole (h.ungrouped hcs)
  | point _ h hes =>
    exact .point rfl (h.ungrouped fun hmem => hcs (List.mem_append_left _ hmem)) hes
  | fraction _ hne hes => exact .fraction rfl hne hes

theorem DecimalLiteral.WritesExponent.float {n : Int} (h : WritesExponent s n cs) :
    WritesExponent .float n cs := by
  cases h with
  | none => exact .none
  | some _ hmark hsign hne hds => exact .some rfl hmark hsign hne hds

/-- Without a comma a decimal numeral has no groups. -/
theorem Numeral.IsWritten.ungrouped {n : Numeral} {l : DecimalLiteral} (h : n.IsWritten s cs)
    (hl : n.literal = .decimal l) (hcs : comma ∉ cs) : n.IsWritten .float cs := by
  obtain ⟨white, sign, body, trailing, rfl, hwhite, hsign, -, hbody, htrailing⟩ := h
  rw [hl] at hbody
  obtain _ | ⟨front, back, rfl, hmantissa, hexponent⟩ := hbody
  have hfront : comma ∉ front := by
    simp only [List.mem_append, not_or] at hcs
    exact hcs.2.2.1.1
  refine ⟨white, sign, front ++ back, trailing, rfl, ⟨hwhite.1, fun _ => rfl⟩, hsign,
    fun _ => rfl, ?_, ⟨htrailing.1, fun _ => rfl⟩⟩
  rw [hl]
  exact .decimal ⟨front, back, rfl, hmantissa.ungrouped hfront, hexponent.float⟩

end

/-! ## Attempts -/

/-- The value of a string that writes no number. -/
def Chars.wordValue (cs : Chars) : Value :=
  if cs = Chars.ofString "true" then .boolean true false
  else if cs = Chars.ofString "false" then .boolean false false
  else .text (.ofChars cs)

section

variable {cs : Chars} {f : Failure}

/-- A string that writes no numeral of the grammar is none of its numbers. -/
theorem tried_eq_none {α : Type} {s : Styles} (h : ¬∃ n : Numeral, n.IsWritten s cs)
    (result : Chars → Numeral → Except Failure α) :
    tried (do let cs ← (Text.ofChars cs).decode; result cs (← Numeral.ofChars s cs)) =
      .ok none := by
  obtain ⟨offset, herror⟩ := decode_ofChars_eq_error (Text.decode_ofChars cs) h result
  rw [herror]
  rfl

theorem autoValue_of_integer {k : Int} (h : parseInteger .any (.ofChars cs) = .ok k) :
    autoValue (.ofChars cs) = .ok (.integer k) := by
  rw [autoValue, h]
  rfl

theorem autoValue_of_float {x : Double} (h : tried (parseInteger .any (.ofChars cs)) = .ok none)
    (hx : parseFloat .float (.ofChars cs) = .ok x) :
    autoValue (.ofChars cs) = .ok (.float x) := by
  rw [autoValue, h, hx]
  rfl

/-- What is no number is a word. -/
theorem autoValue_of_word (h : tried (parseInteger .any (.ofChars cs)) = .ok none)
    (hx : tried (parseFloat .float (.ofChars cs)) = .ok none) :
    autoValue (.ofChars cs) = .ok cs.wordValue := by
  have hword : autoValue (.ofChars cs) =
      .ok ((booleanWord? (.ofChars cs)).elim (.text (.ofChars cs)) (.boolean · false)) := by
    rw [autoValue, h]
    simp only [bind, Except.bind, hx]
    cases booleanWord? (.ofChars cs) <;> rfl
  rw [hword, booleanWord?, Chars.wordValue]
  simp only [Text.ofString, Text.ofChars_inj]
  by_cases htrue : cs = Chars.ofString "true"
  · simp only [if_pos htrue, Option.elim_some]
  by_cases hfalse : cs = Chars.ofString "false"
  · simp only [if_neg htrue, if_pos hfalse, Option.elim_some]
  · simp only [if_neg htrue, if_neg hfalse, Option.elim_none]

theorem autoValue_of_signal {s : Signal}
    (h : parseInteger .any (.ofChars cs) = .error (.signal s)) :
    autoValue (.ofChars cs) = .error (.signal s) := by
  rw [autoValue, h]
  rfl

/-- A text with a comma is no word. -/
theorem Chars.wordValue_of_comma_mem (h : CodePoint.comma ∈ cs) :
    cs.wordValue = .text (.ofChars cs) := by
  have hne : ∀ word : Chars, CodePoint.comma ∉ word → cs ≠ word := by
    rintro word hword rfl
    exact hword h
  rw [wordValue, if_neg (hne _ (by decide)), if_neg (hne _ (by decide))]

end

/-! ## What strings are recognised as -/

/-- What comes of a string that writes the numeral: an integer, or else the floating-point number
nearest to what it writes. With groups in it such a string stays text. -/
inductive Numeral.Recognized (n : Numeral) (cs : Chars) : Value → Prop where
  | integer {k : Int} (h : n.value = k) : Recognized n cs (.integer k)
  | float {x : Double} (h : ∀ k : Int, n.value ≠ k) (hcs : CodePoint.comma ∉ cs)
      (hx : x.IsNearest n.negative n.literal.value) : Recognized n cs (.float x)
  | grouped (h : ∀ k : Int, n.value ≠ k) (hcs : CodePoint.comma ∈ cs) :
      Recognized n cs (.text (.ofChars cs))

section

variable {n : Numeral} {cs : Chars}

theorem Numeral.toFloat_decimal {l : DecimalLiteral} (hl : n.literal = .decimal l) :
    ∃ x : Double, n.toFloat = .ok x ∧ x.IsNearest n.negative n.literal.value := by
  obtain ⟨negative, literal⟩ := n
  cases hl
  refine ⟨_, rfl, ?_⟩
  rw [Literal.value_eq]
  exact Double.isNearest_ofDecimal negative l.coefficient l.power

/-- A numeral is recognised if it is in the range of integers, and fails as an integer does if it
is not. -/
theorem Numeral.recognized_autoValue (hn : n.IsWritten .any cs) :
    (∀ f, n.Exceeds .integer f → autoValue (.ofChars cs) = .error f) ∧
    ((∀ f, ¬n.Exceeds .integer f) →
      ∃ v, autoValue (.ofChars cs) = .ok v ∧ n.Recognized cs v) := by
  have hparse : parseInteger .any (.ofChars cs) = n.toInteger cs :=
    parseInteger_eq (Text.decode_ofChars cs) hn
  refine ⟨fun f hexceeds => ?_, fun hfits => ?_⟩
  · cases hexceeds with
    | integer hl hrange =>
      have herror := toValue_of_exceeds (.integer hl hrange) cs
      cases hk : n.toInteger cs with
      | ok k => simp [toValue, hk] at herror
      | error f =>
        rw [toValue, hk] at herror
        obtain rfl := Except.error.inj herror
        exact autoValue_of_signal (hparse.trans hk)
  rcases toInteger_cases cs hfits with ⟨k, hk⟩ | herror
  · exact ⟨_, autoValue_of_integer (hparse.trans hk), .integer (isExact_of_toInteger hk).2⟩
  · have hnone : tried (parseInteger .any (.ofChars cs)) = .ok none := by
      rw [hparse, herror]
      rfl
    have hinteger : ∀ k : Int, n.value ≠ k := by
      intro k hk
      rw [toInteger_eq_ok (isExact_of_not_exceeds hfits) hk] at herror
      cases herror
    obtain ⟨l, hl⟩ : ∃ l, n.literal = .decimal l := by
      cases hl : n.literal with
      | radix m =>
        have hvalue : n.literal.value = m := by
          rw [hl]
          rfl
        exact absurd (signed_eq n hvalue).symm (hinteger _)
      | decimal l => exact ⟨l, rfl⟩
    by_cases hcs : CodePoint.comma ∈ cs
    · refine ⟨_, ?_, .grouped hinteger hcs⟩
      have hfloat : ¬∃ m : Numeral, m.IsWritten .float cs := by
        rintro ⟨m, hm⟩
        exact hm.comma_not_mem (by decide) hcs
      rw [← Chars.wordValue_of_comma_mem hcs]
      exact autoValue_of_word hnone (tried_eq_none hfloat fun _ n => n.toFloat)
    · obtain ⟨x, hx, hnearest⟩ := toFloat_decimal hl
      refine ⟨_, autoValue_of_float hnone ?_, .float hinteger hcs hnearest⟩
      exact (decode_ofChars_eq (Text.decode_ofChars cs) (hn.ungrouped hl hcs)
        fun _ n => n.toFloat).trans hx

/-- A string that writes no numeral is a word. -/
theorem autoValue_of_not_isWritten (h : ¬∃ n : Numeral, n.IsWritten .any cs) :
    autoValue (.ofChars cs) = .ok cs.wordValue := by
  have hsubset : Styles.float.Subset .any := by decide
  have hfloat : ¬∃ n : Numeral, n.IsWritten .float cs := fun ⟨n, hn⟩ => h ⟨n, hn.mono hsubset⟩
  exact autoValue_of_word (tried_eq_none h fun cs n => n.toInteger cs)
    (tried_eq_none hfloat fun _ n => n.toFloat)

/-- What is not recognised at all are numerals that integers have no room for. -/
theorem autoValue_eq_error :
    autoValue (.ofChars cs) = .error f ↔
      ∃ n : Numeral, n.IsWritten .any cs ∧ n.Exceeds .integer f := by
  refine ⟨fun h => ?_, fun ⟨n, hn, hf⟩ => (Numeral.recognized_autoValue hn).1 f hf⟩
  by_cases hwritten : ∃ n : Numeral, n.IsWritten .any cs
  · obtain ⟨n, hn⟩ := hwritten
    obtain ⟨hexceeds, hrecognized⟩ := Numeral.recognized_autoValue hn
    by_cases hfits : ∀ g, ¬n.Exceeds .integer g
    · obtain ⟨v, hv, -⟩ := hrecognized hfits
      cases hv.symm.trans h
    · push Not at hfits
      obtain ⟨g, hg⟩ := hfits
      obtain rfl := Except.error.inj ((hexceeds g hg).symm.trans h)
      exact ⟨n, hn, hg⟩
  · cases (autoValue_of_not_isWritten hwritten).symm.trans h

/-- There are four sorts of values that a text is recognised as. -/
theorem autoValue_cases {t : Text} {v : Value} (h : autoValue t = .ok v) :
    (∃ n, v = .integer n) ∨ (∃ x, v = .float x) ∨ (∃ b, v = .boolean b false) ∨ v = .text t := by
  obtain ⟨n?, -, h⟩ := bind_eq_ok.1 h
  cases n? with
  | some n => exact .inl ⟨n, (pure_eq_ok.1 h).symm⟩
  | none =>
    obtain ⟨x?, -, h⟩ := bind_eq_ok.1 h
    cases x? with
    | some x => exact .inr (.inl ⟨x, (pure_eq_ok.1 h).symm⟩)
    | none =>
      obtain ⟨-, -, h⟩ := bind_eq_ok.1 h
      cases hword : booleanWord? t with
      | some b =>
        rw [hword] at h
        exact .inr (.inr (.inl ⟨b, (pure_eq_ok.1 h).symm⟩))
      | none =>
        rw [hword] at h
        exact .inr (.inr (.inr (pure_eq_ok.1 h).symm))

theorem Numeral.exceeds_of_toDecimal {f : Failure} (h : n.toDecimal = .error f) :
    n.Exceeds .decimal f := by
  by_cases hrange : n.literal.InRange
  · obtain ⟨hn, rfl, hlimit⟩ := (toDecimal_eq_error_iff hrange).1 h
    exact .minus hrange hn hlimit
  · rw [toDecimal_of_not_inRange hrange] at h
    obtain rfl := Except.error.inj h
    exact .decimal hrange

/-- **Strings that are numbers are recognised, but for places behind groups.** A string that is read
as a decimal number under all styles writes a numeral, which is the same number unless a minus has
rounded it; and the string is recognised as the integer that the numeral writes, or else as the
floating-point number nearest to what it writes, unless there are groups in it. A string that writes
no numeral is a truth value or itself. The strings that are left write numerals that decimal numbers
have no room for, and are recognised in the same way unless integers have no room for them
either. -/
theorem autoValue_recognized (cs : Chars) :
    (∀ v, parse .decimal (some .any) (.text (.ofChars cs)) = .ok v →
      ∃ (d : Decimal) (n : Numeral), v = .decimal d ∧ n.IsWritten .any cs ∧
        (d.Denotes n.value ↔ (n.negative → Decimal.IsKept n.literal.value)) ∧
        ∃ w, autoValue (.ofChars cs) = .ok w ∧ n.Recognized cs w) ∧
    ∀ f, parse .decimal (some .any) (.text (.ofChars cs)) = .error f →
      ((∃ offset, f = .problem (.notNumber cs offset)) ∧
        autoValue (.ofChars cs) = .ok cs.wordValue) ∨
      ∃ n : Numeral, n.IsWritten .any cs ∧ n.Exceeds .decimal f ∧
        (∀ g, n.Exceeds .integer g → autoValue (.ofChars cs) = .error g) ∧
        ((∀ g, ¬n.Exceeds .integer g) →
          ∃ w, autoValue (.ofChars cs) = .ok w ∧ n.Recognized cs w) := by
  by_cases hwritten : ∃ n : Numeral, n.IsWritten .any cs
  · obtain ⟨n, hn⟩ := hwritten
    obtain ⟨hexceeds, hrecognized⟩ := Numeral.recognized_autoValue hn
    have hparse := parseDecimal_eq (Text.decode_ofChars cs) hn
    cases hd : n.toDecimal with
    | error f =>
      rw [parse_decimal_eq, hparse, hd]
      refine ⟨fun v hv => by simp at hv, fun g hg => ?_⟩
      obtain rfl := Except.error.inj hg
      exact .inr ⟨n, hn, Numeral.exceeds_of_toDecimal hd, hexceeds, hrecognized⟩
    | ok d =>
      have hrange : n.literal.InRange := by
        by_contra hrange
        rw [Numeral.toDecimal_of_not_inRange hrange] at hd
        cases hd
      rw [parse_decimal_eq, hparse, hd]
      refine ⟨fun v hv => ?_, fun f hf => by simp at hf⟩
      obtain rfl := Except.ok.inj hv
      refine ⟨d, n, rfl, hn, Numeral.denotes_iff_of_toDecimal hrange hd, hrecognized ?_⟩
      rintro g ⟨-, hexceeds⟩
      exact hexceeds hrange
  · obtain ⟨offset, herror⟩ :=
      decode_ofChars_eq_error (Text.decode_ofChars cs) hwritten fun _ n => n.toDecimal
    rw [parse_decimal_eq, parseDecimal, herror]
    refine ⟨fun v hv => by simp at hv, fun f hf => ?_⟩
    obtain rfl := Except.error.inj hf
    exact .inl ⟨⟨offset, rfl⟩, autoValue_of_not_isWritten hwritten⟩

/-- A number with places is recognised as the nearest one, and a name as itself. -/
theorem autoValue_recognized_tenth :
    parse .decimal (some .any) (.text (.ofString " -0.1")) =
      .ok (.decimal (.finite true 1 (-1))) ∧
    (∃ x : Double, autoValue (.ofString " -0.1") = .ok (.float x) ∧
      x.IsNearest true (1 / 10)) ∧
    parse .decimal (some .any) (.text (.ofString "0x1g")) =
      .error (.problem (.notNumber (Chars.ofString "0x1g") 3)) ∧
    autoValue (.ofString "0x1g") = .ok (.text (.ofString "0x1g")) := by
  have hparse : parse .decimal (some .any) (.text (.ofString " -0.1")) =
      .ok (.decimal (.finite true 1 (-1))) := by
    decide +kernel
  have hrefused : parse .decimal (some .any) (.text (.ofString "0x1g")) =
      .error (.problem (.notNumber (Chars.ofString "0x1g") 3)) := by
    decide +kernel
  have hread : Numeral.read .any (Chars.ofString " -0.1") = .ok {
      negative := true
      literal := .decimal { whole := [0], fraction := [1], exponent := 0 } } := by
    decide +kernel
  refine ⟨hparse, ?_, hrefused, ?_⟩
  · obtain ⟨_, n, -, hn, -, w, hw, hrecognized⟩ := (autoValue_recognized _).1 _ hparse
    obtain rfl := hn.unique (Numeral.read_sound hread)
    have hliteral : Literal.value (.decimal { whole := [0], fraction := [1], exponent := 0 }) =
        1 / 10 := by
      norm_num [Literal.value, DecimalLiteral.value, digitsValue]
    cases hrecognized with
    | @integer k h =>
      rw [Numeral.value_of_negative rfl, hliteral] at h
      have hten : (-1 : ℚ) = 10 * k := by
        rw [← h]
        norm_num
      have hint : (-1 : Int) = 10 * k := by exact_mod_cast hten
      omega
    | float _ _ hx => exact ⟨_, hw, hliteral ▸ hx⟩
    | grouped _ hcs => exact absurd hcs (by decide)
  · rcases (autoValue_recognized _).2 _ hrefused with ⟨-, hword⟩ | ⟨n, -, hexceeds, -⟩
    · exact hword
    · cases hexceeds

/-- With groups the places are not recognised. -/
theorem not_autoValue_recognized : ¬∀ (cs : Chars) (d : Decimal) (x : ℚ),
    parse .decimal (some .any) (.text (.ofChars cs)) = .ok (.decimal d) → d.Denotes x →
      (∃ k : Int, x = k ∧ autoValue (.ofChars cs) = .ok (.integer k)) ∨
      (∀ k : Int, x ≠ k) ∧ ∃ y : Double, autoValue (.ofChars cs) = .ok (.float y) ∧
        y.IsNearest (decide (x < 0)) |x| := by
  intro h
  have htext : autoValue (.ofString "1,234.5") = .ok (.text (.ofString "1,234.5")) := by
    decide +kernel
  have hcases := h (Chars.ofString "1,234.5") (.finite false 12345 (-1)) _ (by decide +kernel)
    ⟨_, _, _, rfl, rfl⟩
  rcases hcases with ⟨k, -, hk⟩ | ⟨-, y, hy, -⟩
  · cases htext.symm.trans hk
  · cases htext.symm.trans hy

end

end UnitText
