import UnitText.Proofs.Encoding.Order
import UnitText.Proofs.Text.Case
import UnitText.Text.Search
import Mathlib.Data.List.Infix

/-!
# Comparing and searching characters in units

Texts are compared and searched unit by unit. What is found are nevertheless characters: the units
of one text occur in those of another just if its characters do, and in UTF-8, texts come in the
order of their characters. Both stay true if case is ignored, because only ASCII has case.

## Main definitions

- `Chars.folded` — characters with capital ASCII letters made small if case is ignored
- `Text.Encodes` — the text holds certain characters, none of them a surrogate

## Main statements

- `Text.compare_eq_ok`, `Text.contains_eq_ok`, `Text.startsWith_eq_ok`, `Text.endsWith_eq_ok` — what
  texts of one width give, by their units
- `Text.compare_narrow` — bytes are compared as characters are
- `Text.search_encoded` — units are searched as characters are
-/

namespace UnitText

theorem CodePoint.val_injective : Function.Injective CodePoint.val := fun _ _ => CodePoint.ext

namespace Chars

/-- The order is the lexicographic order of the numbers. -/
theorem order_eq_compare (cs ds : Chars) :
    cs.order ds = compare (cs.map CodePoint.val) (ds.map CodePoint.val) := by
  induction cs generalizing ds with
  | nil => cases ds <;> rfl
  | cons c cs ih =>
    cases ds with
    | nil => rfl
    | cons d ds =>
      rw [order, List.map_cons, List.map_cons]
      rcases Nat.lt_trichotomy c.val d.val with hlt | heq | hgt
      · rw [if_pos hlt, compare_cons_of_lt hlt]
      · rw [heq, if_neg (Nat.lt_irrefl _), if_neg (Nat.lt_irrefl _), compare_cons_self, ih]
      · rw [if_neg hgt.asymm, if_pos hgt, compare_cons_of_gt hgt]

theorem occursIn_iff {part cs : Chars} : part.occursIn cs = true ↔ part <:+: cs := by
  induction cs with
  | nil => rw [occursIn, List.isEmpty_iff, List.infix_nil]
  | cons c cs ih =>
    rw [occursIn, Bool.or_eq_true, List.isPrefixOf_iff_prefix, ih, List.infix_cons_iff]

end Chars

namespace Text

variable {t s p : Text} {ignoreCase : Bool}

/-! ## Units of one width -/

theorem map_val_unitChars (ht : ∀ u ∈ t.units, u < 0x110000) :
    t.unitChars.map CodePoint.val = t.units := by
  rw [← Width.units_wide32, units_unitChars ht]

theorem unitStrings_eq_ok (hw : s.width = p.width) (hs : ∀ u ∈ s.units, u < 0x110000)
    (hp : ∀ u ∈ p.units, u < 0x110000) : unitStrings s p = .ok (s.unitChars, p.unitChars) := by
  rw [unitStrings, if_pos hw, unitString, unitString, mapM_readUnit_eq_ok hs,
    mapM_readUnit_eq_ok hp]
  rfl

@[simp] theorem width_folded (ignoreCase : Bool) (t : Text) :
    (t.folded ignoreCase).width = t.width := by
  cases ignoreCase <;> rfl

theorem folded_lt (ignoreCase : Bool) (ht : ∀ u ∈ t.units, u < 0x110000) :
    ∀ u ∈ (t.folded ignoreCase).units, u < 0x110000 := by
  cases ignoreCase with
  | false => exact ht
  | true =>
    intro u hu
    obtain ⟨v, hv, rfl⟩ := List.mem_map.1 hu
    exact mapsAscii_lowerUnit.lt_of_lt (by decide) (ht v hv)

theorem unitStrings_folded_eq_ok (ignoreCase : Bool) (hw : s.width = p.width)
    (hs : ∀ u ∈ s.units, u < 0x110000) (hp : ∀ u ∈ p.units, u < 0x110000) :
    unitStrings (s.folded ignoreCase) (p.folded ignoreCase) =
      .ok ((s.folded ignoreCase).unitChars, (p.folded ignoreCase).unitChars) :=
  unitStrings_eq_ok (by rw [width_folded, width_folded, hw]) (folded_lt ignoreCase hs)
    (folded_lt ignoreCase hp)

/-- Texts of one width are in the lexicographic order of their units. -/
theorem compare_eq_ok (ignoreCase : Bool) (hw : s.width = p.width)
    (hs : ∀ u ∈ s.units, u < 0x110000) (hp : ∀ u ∈ p.units, u < 0x110000) :
    compare ignoreCase s p =
      .ok (Ord.compare (s.folded ignoreCase).units (p.folded ignoreCase).units) := by
  rw [compare, unitStrings_folded_eq_ok ignoreCase hw hs hp,
    ← map_val_unitChars (folded_lt ignoreCase hs), ← map_val_unitChars (folded_lt ignoreCase hp),
    ← Chars.order_eq_compare]
  rfl

/-- A text contains another one of its width if it has the units of the other one somewhere. -/
theorem contains_eq_ok (hw : s.width = p.width) (hs : ∀ u ∈ s.units, u < 0x110000)
    (hp : ∀ u ∈ p.units, u < 0x110000) : s.contains p = .ok (decide (p.units <:+: s.units)) := by
  have hiff : p.unitChars <:+: s.unitChars ↔ p.units <:+: s.units := by
    refine ⟨fun h => ?_, fun h => h.map CodePoint.ofNat⟩
    rw [← map_val_unitChars hs, ← map_val_unitChars hp]
    exact h.map CodePoint.val
  rw [contains, unitStrings_eq_ok hw hs hp]
  refine congrArg Except.ok (Bool.eq_iff_iff.2 ?_)
  rw [decide_eq_true_iff, Chars.occursIn_iff, hiff]

theorem startsWith_eq_ok (ignoreCase : Bool) (hw : s.width = p.width)
    (hs : ∀ u ∈ s.units, u < 0x110000) (hp : ∀ u ∈ p.units, u < 0x110000) :
    startsWith ignoreCase s p =
      .ok (decide ((p.folded ignoreCase).units <+: (s.folded ignoreCase).units)) := by
  rw [startsWith, unitStrings_folded_eq_ok ignoreCase hw hs hp,
    ← map_val_unitChars (folded_lt ignoreCase hs), ← map_val_unitChars (folded_lt ignoreCase hp)]
  refine congrArg Except.ok (Bool.eq_iff_iff.2 ?_)
  rw [decide_eq_true_iff, List.isPrefixOf_iff_prefix,
    List.prefix_map_iff_of_injective CodePoint.val_injective]

theorem endsWith_eq_ok (ignoreCase : Bool) (hw : s.width = p.width)
    (hs : ∀ u ∈ s.units, u < 0x110000) (hp : ∀ u ∈ p.units, u < 0x110000) :
    endsWith ignoreCase s p =
      .ok (decide ((p.folded ignoreCase).units <:+ (s.folded ignoreCase).units)) := by
  rw [endsWith, unitStrings_folded_eq_ok ignoreCase hw hs hp,
    ← map_val_unitChars (folded_lt ignoreCase hs), ← map_val_unitChars (folded_lt ignoreCase hp)]
  refine congrArg Except.ok (Bool.eq_iff_iff.2 ?_)
  rw [decide_eq_true_iff, List.isSuffixOf_iff_suffix,
    List.suffix_map_iff_of_injective CodePoint.val_injective]

end Text

/-! ## Texts without surrogates -/

/-- The characters with capital ASCII letters made small if case is ignored. -/
def Chars.folded (ignoreCase : Bool) (cs : Chars) : Chars :=
  if ignoreCase then cs.map (CodePoint.mapVal lowerUnit) else cs

namespace Text

variable {s p t : Text} {cs ds : Chars} {w : Width}

/-- The text holds these characters, and none of them is a surrogate. -/
structure Encodes (t : Text) (cs : Chars) : Prop where
  units_eq : t.units = t.width.units cs
  not_isSurrogate : ∀ c ∈ cs, ¬c.IsSurrogate

theorem encodes_ofChars (hcs : ∀ c ∈ cs, ¬c.IsSurrogate) : (ofChars cs).Encodes cs :=
  ⟨(Width.units_wide32 cs).symm, hcs⟩

theorem exists_encodes (w : Width) (hcs : ∀ c ∈ cs, ¬c.IsSurrogate) :
    ∃ t, w.encodeText cs = .ok t ∧ t.width = w ∧ t.Encodes cs := by
  obtain ⟨t, ht, hwidth, hunits⟩ :=
    Width.encodeText_eq_ok fun c hc => Width.holds_of_not_isSurrogate (w := w) (hcs c hc)
  exact ⟨t, ht, hwidth, by rw [hunits, hwidth], hcs⟩

namespace Encodes

theorem lt (h : t.Encodes cs) : ∀ u ∈ t.units, u < 0x110000 := by
  rw [h.units_eq]
  exact fun u hu => Width.lt_of_mem_units hu

/-- To ignore the case of units is to ignore the case of characters. -/
theorem folded (h : t.Encodes cs) (ignoreCase : Bool) :
    (t.folded ignoreCase).Encodes (cs.folded ignoreCase) := by
  cases ignoreCase with
  | false => exact h
  | true =>
    refine ⟨?_, fun c hc => ?_⟩
    · calc t.units.map lowerUnit
          = (t.width.units cs).map lowerUnit := by rw [h.units_eq]
        _ = t.width.units (cs.map (CodePoint.mapVal lowerUnit)) :=
            (Width.units_map mapsAscii_lowerUnit cs).symm
    · obtain ⟨d, hd, rfl⟩ := List.mem_map.1 hc
      exact mapsAscii_lowerUnit.not_isSurrogate_mapVal (h.not_isSurrogate d hd)

theorem contains_eq_ok (hs : s.Encodes cs) (hp : p.Encodes ds) (hw : s.width = p.width) :
    s.contains p = .ok (decide (ds <:+: cs)) := by
  rw [Text.contains_eq_ok hw hs.lt hp.lt]
  simp only [hs.units_eq, hp.units_eq, ← hw,
    Width.units_infix_iff hs.not_isSurrogate hp.not_isSurrogate]

theorem startsWith_eq_ok (hs : s.Encodes cs) (hp : p.Encodes ds) (hw : s.width = p.width)
    (ignoreCase : Bool) : startsWith ignoreCase s p =
      .ok (decide (ds.folded ignoreCase <+: cs.folded ignoreCase)) := by
  have hs' := hs.folded ignoreCase
  have hp' := hp.folded ignoreCase
  rw [Text.startsWith_eq_ok ignoreCase hw hs.lt hp.lt]
  simp only [hs'.units_eq, hp'.units_eq, width_folded, ← hw,
    Width.units_prefix_iff hs'.not_isSurrogate hp'.not_isSurrogate]

theorem endsWith_eq_ok (hs : s.Encodes cs) (hp : p.Encodes ds) (hw : s.width = p.width)
    (ignoreCase : Bool) : endsWith ignoreCase s p =
      .ok (decide (ds.folded ignoreCase <:+ cs.folded ignoreCase)) := by
  have hs' := hs.folded ignoreCase
  have hp' := hp.folded ignoreCase
  rw [Text.endsWith_eq_ok ignoreCase hw hs.lt hp.lt]
  simp only [hs'.units_eq, hp'.units_eq, width_folded, ← hw,
    Width.units_suffix_iff hs'.not_isSurrogate hp'.not_isSurrogate]

theorem compare_eq_ok (hs : s.Encodes cs) (hp : p.Encodes ds) (hw : s.width = p.width)
    (hpairs : s.width ≠ .wide16) (ignoreCase : Bool) : compare ignoreCase s p =
      .ok (Ord.compare ((cs.folded ignoreCase).map CodePoint.val)
        ((ds.folded ignoreCase).map CodePoint.val)) := by
  have hs' := hs.folded ignoreCase
  have hp' := hp.folded ignoreCase
  rw [Text.compare_eq_ok ignoreCase hw hs.lt hp.lt, hs'.units_eq, hp'.units_eq, width_folded,
    width_folded, ← hw, Width.compare_units hpairs hs'.not_isSurrogate hp'.not_isSurrogate]

end Encodes

/-- **Bytes are compared as characters are.** Two texts without surrogates have the same order in
UTF-8 as they have as strings, whether or not case is ignored: that of the numbers of their
characters, the first difference deciding. -/
theorem compare_narrow {a b : Chars} (ha : ∀ c ∈ a, ¬c.IsSurrogate) (hb : ∀ c ∈ b, ¬c.IsSurrogate)
    (ignoreCase : Bool) :
    ∃ s t, Width.narrow.encodeText a = .ok s ∧ Width.narrow.encodeText b = .ok t ∧
      compare ignoreCase s t = compare ignoreCase (ofChars a) (ofChars b) ∧
      compare ignoreCase (ofChars a) (ofChars b) =
        .ok (Ord.compare ((a.folded ignoreCase).map CodePoint.val)
          ((b.folded ignoreCase).map CodePoint.val)) := by
  obtain ⟨s, hencode, hwidth, hs⟩ := exists_encodes .narrow ha
  obtain ⟨t, hencode', hwidth', ht⟩ := exists_encodes .narrow hb
  have hchars := (encodes_ofChars ha).compare_eq_ok (encodes_ofChars hb) rfl nofun ignoreCase
  have hbytes := hs.compare_eq_ok ht (hwidth.trans hwidth'.symm) (hwidth ▸ nofun) ignoreCase
  exact ⟨s, t, hencode, hencode', hbytes.trans hchars.symm, hchars⟩

/-- The first characters differ in case only; the second ones take three bytes and four. -/
theorem compare_narrow_ignoring_case :
    ∃ s t, Width.narrow.encodeText (Chars.ofString "Z～") = .ok s ∧
      Width.narrow.encodeText (Chars.ofString "z😀") = .ok t ∧ compare true s t = .ok .lt := by
  obtain ⟨s, t, hs, ht, hsame, hvalue⟩ := compare_narrow (a := Chars.ofString "Z～")
    (b := Chars.ofString "z😀") (by decide) (by decide) true
  exact ⟨s, t, hs, ht, hsame.trans (hvalue.trans (by decide))⟩

/-- In UTF-16, the first half of a pair comes before other characters. -/
example : (compare false (Container.units16.pack (Utf16.units (Chars.ofString "～")))
    (Container.units16.pack (Utf16.units (Chars.ofString "😀")))).toOption = some .gt := by
  decide

/-- **Units are searched as characters are.** Of two texts without surrogates, encoded in any
width, one contains the other, begins with it or ends with it just if it does so as a string, which
is to say, if its characters do. At the beginning and at the end, case may be ignored or not. -/
theorem search_encoded {t v : Chars} (ht : ∀ c ∈ t, ¬c.IsSurrogate) (hv : ∀ c ∈ v, ¬c.IsSurrogate)
    (w : Width) (ignoreCase : Bool) :
    ∃ s p, w.encodeText t = .ok s ∧ w.encodeText v = .ok p ∧
      s.contains p = (ofChars t).contains (ofChars v) ∧
      startsWith ignoreCase s p = startsWith ignoreCase (ofChars t) (ofChars v) ∧
      endsWith ignoreCase s p = endsWith ignoreCase (ofChars t) (ofChars v) ∧
      (ofChars t).contains (ofChars v) = .ok (decide (v <:+: t)) ∧
      startsWith ignoreCase (ofChars t) (ofChars v) =
        .ok (decide (v.folded ignoreCase <+: t.folded ignoreCase)) ∧
      endsWith ignoreCase (ofChars t) (ofChars v) =
        .ok (decide (v.folded ignoreCase <:+ t.folded ignoreCase)) := by
  obtain ⟨s, hencode, hwidth, hs⟩ := exists_encodes w ht
  obtain ⟨p, hencode', hwidth', hp⟩ := exists_encodes w hv
  have hw : s.width = p.width := hwidth.trans hwidth'.symm
  have ht' := encodes_ofChars ht
  have hv' := encodes_ofChars hv
  have hcontains := ht'.contains_eq_ok hv' rfl
  have hstarts := ht'.startsWith_eq_ok hv' rfl ignoreCase
  have hends := ht'.endsWith_eq_ok hv' rfl ignoreCase
  refine ⟨s, p, hencode, hencode', ?_, ?_, ?_, hcontains, hstarts, hends⟩
  · rw [hcontains, hs.contains_eq_ok hp hw]
  · rw [hstarts, hs.startsWith_eq_ok hp hw]
  · rw [hends, hs.endsWith_eq_ok hp hw]

/-- A pair of units and a letter behind it. -/
theorem search_encoded_pair :
    ∃ s p, Width.wide16.encodeText (Chars.ofString "a€😀B") = .ok s ∧
      Width.wide16.encodeText (Chars.ofString "😀b") = .ok p ∧
      s.contains p = .ok false ∧ startsWith true s p = .ok false ∧
        endsWith true s p = .ok true := by
  obtain ⟨s, p, hs, hp, hcontains, hstarts, hends, hcontains', hstarts', hends'⟩ :=
    search_encoded (t := Chars.ofString "a€😀B") (v := Chars.ofString "😀b") (by decide) (by decide)
      .wide16 true
  exact ⟨s, p, hs, hp, hcontains.trans (hcontains'.trans (by decide)),
    hstarts.trans (hstarts'.trans (by decide)), hends.trans (hends'.trans (by decide))⟩

end Text

end UnitText
