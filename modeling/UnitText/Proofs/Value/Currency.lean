import UnitText.Argument.Text
import UnitText.Proofs.Number.Decimal
import UnitText.Proofs.Numeral.Figures

/-!
# Amounts of money written out

An amount is written with a minus if it is below zero, a symbol, and digits in groups of three. Its
size is rounded to the places that are shown. But the sign is taken off by arithmetic, which rounds
before that: only an amount that arithmetic has room for is rounded once, and one that is too large
for arithmetic is not written at all.

## Main definitions

- `AmountText` — the digits of an amount as they are written
- `AmountText.Valid` — the digits before the point are in groups of three
- `AmountText.literal` — the number that they write

## Main statements

- `AmountText.Valid.filterMap_digit?_chars` — without the commas the text is the digits
- `Figures.exists_groups` — what the groups are
- `Value.defaultText_currency` — the default text of an amount
-/

namespace UnitText

/-- The digits of an amount as they are written: those before the point in groups, and those behind
it. -/
structure AmountText where
  /-- The first group, which may be shorter than the others. -/
  first : List ℕ
  groups : List (List ℕ)
  fraction : List ℕ
deriving DecidableEq

namespace AmountText

variable {t : AmountText}

/-- The digits as a literal, without the commas. -/
def literal (t : AmountText) : DecimalLiteral where
  whole := t.first ++ t.groups.flatten
  fraction := t.fraction
  exponent := 0

/-- The digits written out, with a comma before each group but the first. There is no point without
digits behind it. -/
def chars (t : AmountText) : Chars :=
  Chars.ofDigits t.first ++
    (t.groups.flatMap fun g => CodePoint.ofChar ',' :: Chars.ofDigits g) ++
    if t.fraction = [] then [] else CodePoint.ofChar '.' :: Chars.ofDigits t.fraction

/-- The first group has one to three digits, and all others have three. -/
structure Valid (t : AmountText) : Prop where
  ne_nil : t.first ≠ []
  length_first : t.first.length ≤ 3
  length_groups : ∀ g ∈ t.groups, g.length = 3
  lt : ∀ d ∈ t.literal.whole ++ t.literal.fraction, d < 10

theorem filterMap_digit?_ofDigits {ds : List ℕ} (h : ∀ d ∈ ds, d < 10) :
    (Chars.ofDigits ds).filterMap CodePoint.digit? = ds := by
  have hmap : (Chars.ofDigits ds).map CodePoint.digit? = ds.map some := map_digit?_digitChar h
  have hid : CodePoint.digit? = id ∘ CodePoint.digit? := rfl
  rw [hid, ← List.filterMap_map, hmap, List.filterMap_map, Function.id_comp, List.filterMap_some]

/-- Without the commas and the point the text is the digits of the literal. -/
theorem Valid.filterMap_digit?_chars (h : t.Valid) :
    t.chars.filterMap CodePoint.digit? = t.literal.whole ++ t.literal.fraction := by
  obtain ⟨hwhole, hfraction⟩ := List.forall_mem_append.1 h.lt
  obtain ⟨hfirst, hgroups⟩ := List.forall_mem_append.1 hwhole
  have hcomma : (CodePoint.ofChar ',').digit? = none := by decide
  have hpoint : (CodePoint.ofChar '.').digit? = none := by decide
  have hgroup : ∀ gs : List (List ℕ), (∀ d ∈ gs.flatten, d < 10) →
      (gs.flatMap fun g => CodePoint.ofChar ',' :: Chars.ofDigits g).filterMap CodePoint.digit? =
        gs.flatten := by
    intro gs hgs
    induction gs with
    | nil => rfl
    | cons g gs ih =>
      obtain ⟨hg, hgs⟩ := List.forall_mem_append.1 hgs
      rw [List.flatMap_cons, List.filterMap_append, List.filterMap_cons_none hcomma,
        filterMap_digit?_ofDigits hg, ih hgs, List.flatten_cons]
  rw [chars, List.filterMap_append, List.filterMap_append, filterMap_digit?_ofDigits hfirst,
    hgroup _ hgroups, literal]
  congr 1
  split
  · next hnone => exact hnone.symm
  · rw [List.filterMap_cons_none hpoint]
    exact filterMap_digit?_ofDigits hfraction

end AmountText

namespace Figures

/-- A comma is put behind each group of three but the last, the digits being in reverse order. -/
theorem exists_group : ∀ {ds : List ℕ}, ds ≠ [] →
    ∃ (first : List ℕ) (groups : List (List ℕ)), ds.reverse = first ++ groups.flatten ∧
      first ≠ [] ∧ first.length ≤ 3 ∧ (∀ g ∈ groups, g.length = 3) ∧
      (grouped.group (ds.map Nat.digitChar)).reverse =
        first.map Nat.digitChar ++ groups.flatMap fun g => ',' :: g.map Nat.digitChar
  | a :: b :: c :: d :: ds, _ => by
    obtain ⟨first, groups, hsplit, hne, hfirst, hgroups, htext⟩ :=
      exists_group (List.cons_ne_nil d ds)
    have hgroup : grouped.group ((a :: b :: c :: d :: ds).map Nat.digitChar) =
        a.digitChar :: b.digitChar :: c.digitChar :: ',' ::
          grouped.group ((d :: ds).map Nat.digitChar) := rfl
    refine ⟨first, groups ++ [[c, b, a]], ?_, hne, hfirst, ?_, ?_⟩
    · have hreverse : (a :: b :: c :: d :: ds).reverse = (d :: ds).reverse ++ [c, b, a] := by simp
      rw [hreverse, hsplit, List.append_assoc, List.flatten_concat]
    · exact List.forall_mem_append.2 ⟨hgroups, List.forall_mem_singleton.2 rfl⟩
    · rw [hgroup]
      simp only [List.reverse_cons, htext, List.append_assoc, List.flatMap_append]
      rfl
  | [a], _ => ⟨[a], [], rfl, List.cons_ne_nil _ _, by simp, nofun, rfl⟩
  | [a, b], _ => ⟨[b, a], [], rfl, List.cons_ne_nil _ _, by simp, nofun, rfl⟩
  | [a, b, c], _ => ⟨[c, b, a], [], rfl, List.cons_ne_nil _ _, by simp, nofun, rfl⟩
  | [], h => absurd rfl h

/-- Commas make groups of three digits, counted from the last one. -/
theorem exists_groups {ds : List ℕ} (hne : ds ≠ []) :
    ∃ (first : List ℕ) (groups : List (List ℕ)), ds = first ++ groups.flatten ∧ first ≠ [] ∧
      first.length ≤ 3 ∧ (∀ g ∈ groups, g.length = 3) ∧
      grouped (ds.map Nat.digitChar) =
        first.map Nat.digitChar ++ groups.flatMap fun g => ',' :: g.map Nat.digitChar := by
  have h := exists_group (mt List.reverse_eq_nil_iff.1 hne)
  rwa [List.reverse_reverse, List.map_reverse] at h

end Figures

namespace Decimal

/-- Places within bounds are taken as they are. -/
theorem places_natCast {p : ℕ} (h : p ≤ maxExponent) : places p = .ok p := by
  have hmax : maxExponent < 2 ^ 63 := by decide
  rw [places, if_neg (by omega), if_neg (by omega), Int.toNat_natCast]

end Decimal

namespace Currency

/-- A size is written with the groups and places of the amount that it is rounded to. -/
theorem exists_amountText (c : ℕ) (e : ℤ) (places : ℕ) :
    ∃ t : AmountText, t.Valid ∧ t.fraction.length = places ∧
      RoundsAt (-places) (c * 10 ^ e) t.literal.value ∧
      Chars.ofString (amountText places (.finite false c e)) = t.chars := by
  obtain ⟨⟨whole, fraction, exponent⟩, hshows, hround, hplaces⟩ :=
    Figures.exists_shows_fixed c e places
  obtain rfl : 0 = exponent := hshows.exponent
  obtain ⟨first, groups, rfl, hne, hfirst, hgroups, htext⟩ := Figures.exists_groups hshows.ne_nil
  refine ⟨⟨first, groups, fraction⟩, ⟨hne, hfirst, hgroups, hshows.lt⟩, hplaces, hround, ?_⟩
  have hwhole : (Figures.fixed c e places).whole = (first ++ groups.flatten).map Nat.digitChar :=
    hshows.whole
  have hfraction : (Figures.fixed c e places).fraction = fraction.map Nat.digitChar :=
    hshows.fraction
  have hexponent : (Figures.fixed c e places).exponent = none := rfl
  rw [amountText, Chars.ofString, String.toList_ofList]
  simp only [Figures.chars, hwhole, htext, hfraction, hexponent]
  simp only [List.append_nil, List.map_append, List.map_flatMap, List.map_cons, List.map_eq_nil_iff,
    AmountText.chars]
  congr 1
  by_cases hnone : fraction = []
  · rw [if_pos ⟨hnone, Bool.false_ne_true⟩, if_pos hnone]
    rfl
  · rw [if_neg fun h => hnone h.1, if_neg hnone]
    rfl

section

variable {negative : Bool} {c : ℕ} {e : ℤ} {symbol : Chars} {places : ℕ}

/-- The size, the places and the sign are all that an amount consists of. -/
theorem text_eq_ok {c' : ℕ} {e' : ℤ}
    (habs : (Decimal.finite negative c e).abs = .ok (.finite false c' e'))
    (hplaces : places ≤ Decimal.maxExponent) :
    text ⟨.finite negative c e, symbol, places⟩ =
      .ok ((if negative && c != 0 then [CodePoint.ofChar '-'] else []) ++ symbol ++
        Chars.ofString (amountText places (.finite false c' e'))) := by
  have hsign : Chars.ofString (if negative && c != 0 then "-" else "") =
      if negative && c != 0 then [CodePoint.ofChar '-'] else [] := by
    split <;> rfl
  have hbelow : (Decimal.finite negative c e).isBelowZero = .ok (negative && c != 0) := rfl
  refine bind_eq_ok.2 ⟨_, habs, bind_eq_ok.2 ⟨_, Decimal.places_natCast hplaces, ?_⟩⟩
  refine bind_eq_ok.2 ⟨_, hbelow, ?_⟩
  rw [← hsign]
  rfl

theorem text_eq_error {f : Failure} (habs : (Decimal.finite negative c e).abs = .error f) :
    text ⟨.finite negative c e, symbol, places⟩ = .error f := by
  rw [text, habs]
  rfl

end

end Currency

theorem Value.defaultText_currency_eq (c : Currency) :
    (Value.currency c).defaultText = (do return .chars (← c.text)) := by
  rfl

/-- **Amounts of money are written in groups and rounded**, after their size was rounded to the
digits that arithmetic keeps. There is a minus if and only if the amount is below zero, then the
symbol, and then a size `w` that is rounded once more, half to even, to the places asked for. This
`w` is the size of the amount itself if and only if arithmetic has room for it. Amounts that
arithmetic has no result for are not written. -/
theorem Value.defaultText_currency {d : Decimal} {x : ℚ} (hd : d.Denotes x) (symbol : Chars)
    {places : ℕ} (hplaces : places ≤ Decimal.maxExponent) :
    (Decimal.overflowLimit ≤ |x| →
      (Value.currency ⟨d, symbol, places⟩).defaultText = .error (.signal .overflow)) ∧
    (|x| < Decimal.overflowLimit → ∃ w : ℚ,
      RoundsTo 10 Decimal.precision Decimal.minResultExponent |x| w ∧
      (w = |x| ↔ Decimal.IsKept |x|) ∧
      ∃ t : AmountText, t.Valid ∧ t.fraction.length = places ∧
        RoundsAt (-places) w t.literal.value ∧
        (Value.currency ⟨d, symbol, places⟩).defaultText =
          .ok (.chars ((if x < 0 then [CodePoint.ofChar '-'] else []) ++ symbol ++ t.chars))) := by
  obtain ⟨negative, c, e, rfl, hx⟩ := hd
  obtain ⟨habs, hbelow⟩ := Decimal.abs_eq_and_neg_iff hx
  rw [habs]
  constructor
  · intro hlimit
    rw [defaultText_currency_eq, Currency.text_eq_error (Decimal.abs_eq_error negative hlimit)]
    rfl
  · intro hlimit
    obtain ⟨c', e', hresult, hround, hkept⟩ := Decimal.exists_abs negative hlimit
    obtain ⟨t, hvalid, hlength, hplace, htext⟩ := Currency.exists_amountText c' e' places
    refine ⟨_, hround, hkept, t, hvalid, hlength, hplace, ?_⟩
    rw [defaultText_currency_eq, Currency.text_eq_ok hresult hplaces, htext]
    simp only [hbelow]
    rfl

/-- A carry fills a fourth digit, and so a second group. -/
theorem Value.defaultText_currency_carry :
    (Decimal.finite true 999995 (-3)).Denotes (-999.995) ∧ (2 : ℕ) ≤ Decimal.maxExponent ∧
    ∃ t : AmountText, t.Valid ∧ t.fraction.length = 2 ∧ t.literal.value = 1000 ∧
      (Value.currency ⟨.finite true 999995 (-3), Chars.ofString "$", (2 : ℕ)⟩).defaultText =
        .ok (.chars (CodePoint.ofChar '-' :: CodePoint.ofChar '$' :: t.chars)) := by
  have hd : (Decimal.finite true 999995 (-3)).Denotes (-999.995) :=
    ⟨true, 999995, -3, rfl, by norm_num⟩
  have hplaces : (2 : ℕ) ≤ Decimal.maxExponent := by decide
  have habs : |(-999.995 : ℚ)| = 999.995 := by norm_num [abs]
  have hlimit : |(-999.995 : ℚ)| < Decimal.overflowLimit := by
    refine Decimal.lt_overflowLimit ?_
    rw [habs]
    norm_num [Decimal.precision]
  have hneg : (-999.995 : ℚ) < 0 := by norm_num
  refine ⟨hd, hplaces, ?_⟩
  obtain ⟨w, -, hkept, t, hvalid, hlength, hround, htext⟩ :=
    (Value.defaultText_currency hd (Chars.ofString "$") hplaces).2 hlimit
  obtain rfl := hkept.2 ⟨999995, -3, by decide, by decide, by rw [habs]; norm_num⟩
  have hcarry : RoundsAt (-(2 : ℕ)) |(-999.995 : ℚ)| 1000 := by
    refine ⟨100000, .of_even ?_ (by decide), by norm_num⟩
    rw [habs]
    norm_num [abs]
  rw [if_pos hneg] at htext
  exact ⟨t, hvalid, hlength, hround.unique hcarry, htext⟩

/-- The last of twenty-nine digits is lost. -/
theorem Value.not_defaultText_currency : ¬∀ (d : Decimal) (x : ℚ) (symbol : Chars) (places : ℕ),
    d.Denotes x → places ≤ Decimal.maxExponent →
    ∃ t : AmountText, t.Valid ∧ t.fraction.length = places ∧
      RoundsAt (-places) |x| t.literal.value ∧
      (Value.currency ⟨d, symbol, places⟩).defaultText =
        .ok (.chars ((if x < 0 then [CodePoint.ofChar '-'] else []) ++ symbol ++ t.chars)) := by
  intro h
  have hd : (Decimal.finite false 12345678901234567890123456789 0).Denotes
      12345678901234567890123456789 := ⟨false, _, 0, rfl, by norm_num⟩
  have hpositive : (0 : ℚ) < 12345678901234567890123456789 := by norm_num
  obtain ⟨t, hvalid, hlength, hround, htext⟩ := h _ _ [] 0 hd (by decide)
  rw [if_neg hpositive.not_gt, List.nil_append, List.nil_append] at htext
  have hwritten :
      (Value.currency ⟨.finite false 12345678901234567890123456789 0, [], (0 : ℕ)⟩).defaultText =
        .ok (.chars (Chars.ofString "12,345,678,901,234,567,890,123,456,790")) := by
    decide +kernel
  have hchars : t.chars = Chars.ofString "12,345,678,901,234,567,890,123,456,790" :=
    Piece.chars.inj (Except.ok.inj (htext.symm.trans hwritten))
  have hdigits : t.literal.whole ++ t.literal.fraction = [1, 2, 3, 4, 5, 6, 7, 8, 9, 0, 1, 2, 3, 4,
      5, 6, 7, 8, 9, 0, 1, 2, 3, 4, 5, 6, 7, 9, 0] := by
    rw [← hvalid.filterMap_digit?_chars, hchars]
    decide +kernel
  have hvalue : t.literal.value = 12345678901234567890123456790 := by
    rw [DecimalLiteral.value_eq, DecimalLiteral.coefficient, hdigits, DecimalLiteral.power]
    simp [AmountText.literal, hlength, digitsValue]
  have hself := hround.eq_self (k := 12345678901234567890123456789) (by norm_num [abs])
  rw [hvalue] at hself
  norm_num [abs] at hself

end UnitText
