import UnitText.Proofs.Text.Items
import UnitText.Proofs.Text.Split

/-!
# Units are split as their characters are

A text is split unit by unit. If the separators are ASCII, it comes to the same to decode it and to
split the characters: no cut goes through a character, and what stands beside a cut is decoded as it
was, whether or not it is well-formed.

## Main definitions

- `Width.codes` — the numbers of the characters of a sequence of units

## Main statements

- `Separators.units_of_ascii` — separators of ASCII are the same units in every width
- `Width.map_codes_splitUnits` — the items of the characters are the characters of the items
- `Value.split_decode` — a text is split as its characters are
-/

namespace UnitText

/-! ## Separators -/

namespace Value

variable {w w' : Width} {u : Nat}

theorem eq_of_fittingUnit {n : Int} (h : fittingUnit w n = .ok u) : n = u := by
  unfold fittingUnit at h
  split at h
  · obtain rfl := Except.ok.inj h
    omega
  · cases h

theorem fittingUnit_of_lt (hu : u < w.unitLimit) : fittingUnit w u = .ok u := by
  rw [fittingUnit, if_pos ⟨by omega, by omega⟩, Int.toNat_natCast]

theorem fittingUnit_ascii (hu : u < 0x80) : fittingUnit w u = .ok u := by
  have hlimit : 0x80 ≤ w.unitLimit := by cases w <;> decide
  exact fittingUnit_of_lt (hu.trans_le hlimit)

theorem fittingUnit_of_ascii {n : Int} (hu : u < 0x80) (h : fittingUnit w n = .ok u) :
    fittingUnit w' n = .ok u := by
  rw [eq_of_fittingUnit h]
  exact fittingUnit_ascii hu

theorem characterUnit_ascii (hu : u < 0x80) : characterUnit w (.ofNat u) = .ok u := by
  have hval : (CodePoint.ofNat u).val = u := CodePoint.val_ofNat (by omega)
  have hascii : (CodePoint.ofNat u).IsAscii := hval.trans_lt hu
  have hencode : w.encode [CodePoint.ofNat u] = .ok [u] := by
    rw [Width.encode_eq_ok (Width.holds_of_isAscii (List.forall_mem_singleton.2 hascii)),
      Width.units, List.flatMap_singleton, Width.unitsOf_of_isAscii hascii, hval]
  exact bind_eq_ok.2 ⟨_, hencode, fittingUnit_ascii hu⟩

/-- Only a character of ASCII is a unit of ASCII. -/
theorem eq_of_characterUnit {c : CodePoint} (hu : u < 0x80) (h : characterUnit w c = .ok u) :
    c = CodePoint.ofNat u := by
  obtain ⟨us, hus, h⟩ := bind_eq_ok.1 h
  have hunits : us = w.unitsOf c := by
    rw [Width.encode] at hus
    split at hus
    · exact (Except.ok.inj hus).symm.trans (List.append_nil _)
    · cases hus
  rw [← Width.mem_unitsOf_iff (w := w) hu, ← hunits]
  split at h
  · next v =>
    rw [Int.ofNat_inj.1 (eq_of_fittingUnit h)]
    exact List.mem_singleton.2 rfl
  · exact absurd h throw_ne_ok

/-- A separator of ASCII is the same unit in every width. -/
theorem codeUnit_of_ascii {v : Value} (hu : u < 0x80) (h : codeUnit w v = .ok u) :
    codeUnit w' v = .ok u := by
  have hrefused : ∀ v : Value,
      (do throw (.value (.notUnit (← v.quoted))) : Except Failure Nat) ≠ .ok u := by
    intro v h
    obtain ⟨q, -, h⟩ := bind_eq_ok.1 h
    exact throw_ne_ok h
  unfold codeUnit at h ⊢
  cases v with
  | integer | machineInteger => exact fittingUnit_of_ascii hu h
  | member m =>
    dsimp only at h ⊢
    split at h
    · next hinteger =>
      rw [if_pos hinteger]
      exact fittingUnit_of_ascii hu h
    · exact absurd h (hrefused _)
  | text t =>
    obtain ⟨k, us, hlt⟩ := t
    dsimp only at h ⊢
    split at h
    · rw [eq_of_characterUnit hu h]
      exact characterUnit_ascii hu
    · exact fittingUnit_of_ascii hu h
    · exact fittingUnit_of_ascii hu h
    · exact absurd h (hrefused _)
  | _ => exact absurd h (hrefused _)

end Value

theorem Separators.units_of_ascii {w w' : Width} {separators : Separators} {seps : List Nat}
    (hseps : ∀ u ∈ seps, u < 0x80) (h : separators.units w = .ok seps) :
    separators.units w' = .ok seps := by
  obtain ⟨items, hitems, h⟩ := bind_eq_ok.1 h
  refine bind_eq_ok.2 ⟨items, hitems, ?_⟩
  exact mapM_eq_ok_of_imp h fun v u hu => Value.codeUnit_of_ascii (hseps u hu)

/-! ## Splitting -/

namespace Width

variable {w : Width} {us : List Nat} {isSeparator : Nat → Bool}

/-- The numbers of the characters of a sequence of units. -/
def codes (w : Width) (us : List Nat) : List Nat := (w.decode us).map CodePoint.val

theorem codes_append_cons {u : Nat} (hu : u < 0x80) (us vs : List Nat) :
    w.codes (us ++ u :: vs) = w.codes us ++ u :: w.codes vs := by
  simp only [codes, decode_append_cons hu, List.map_append, List.map_cons,
    CodePoint.val_ofNat (Nat.lt_trans hu (by decide : 0x80 < 0x110000))]

theorem codes_eq_nil_iff (hus : ∀ u ∈ us, u < w.codeLimit) : w.codes us = [] ↔ us = [] := by
  rw [codes, List.map_eq_nil_iff, decode_eq_nil_iff hus]

/-- Where no unit is a separator, no character is one. -/
theorem codes_free (hsep : ∀ u, isSeparator u = true → u < 0x80)
    (hus : ∀ u ∈ us, u < w.codeLimit) (hfree : ∀ u ∈ us, isSeparator u = false) :
    ∀ v ∈ w.codes us, isSeparator v = false := by
  intro v hv
  obtain ⟨c, hc, rfl⟩ := List.mem_map.1 hv
  cases hval : isSeparator c.val with
  | false => rfl
  | true =>
    rw [← CodePoint.ofNat_val c, ofNat_mem_decode_iff (hsep _ hval) hus] at hc
    rw [← hval, hfree _ hc]

theorem map_codes_lastItem (removeEmpty : Bool) (hus : ∀ u ∈ us, u < w.codeLimit) :
    (lastItem removeEmpty us).map w.codes = lastItem removeEmpty (w.codes us) := by
  simp only [lastItem, codes_eq_nil_iff hus]
  split <;> rfl

/-- Units and their characters are split at the same separators of ASCII. -/
theorem map_codes_splitUnits (hsep : ∀ u, isSeparator u = true → u < 0x80) (removeEmpty : Bool)
    (limit : Option Nat) (hus : ∀ u ∈ us, u < w.codeLimit) :
    (splitUnits isSeparator removeEmpty limit us).map w.codes =
      splitUnits isSeparator removeEmpty limit (w.codes us) := by
  induction us using cut_induction isSeparator generalizing limit with
  | free us hfree =>
    rw [splitUnits_of_free hfree, splitUnits_of_free (codes_free hsep hus hfree),
      map_codes_lastItem removeEmpty hus]
  | cut item sep us hitem hsep' ih =>
    by_cases hlimit : limit = some 0
    · subst hlimit
      rw [splitUnits_zero, splitUnits_zero, map_codes_lastItem removeEmpty hus]
    · rw [List.forall_mem_append, List.forall_mem_cons] at hus
      rw [codes_append_cons (hsep sep hsep'), splitUnits_first hlimit hitem hsep',
        splitUnits_first hlimit (codes_free hsep hus.1 hitem) hsep']
      simp only [codes_eq_nil_iff hus.1]
      split
      · exact ih limit hus.2.2
      · rw [List.map_cons, ih _ hus.2.2]

end Width

namespace Text

variable {t : Text}

theorem pack_map_val (cs : Chars) : Container.chars.pack (cs.map CodePoint.val) = ofChars cs := by
  refine Text.ext rfl (Container.units_pack fun u hu => ?_)
  obtain ⟨c, -, rfl⟩ := List.mem_map.1 hu
  exact c.val_lt

/-- A piece of a text is decoded as the text is. -/
theorem decode_pack (ht : ∀ u ∈ t.units, u < 0x110000) {us : List Nat}
    (hus : ∀ u ∈ us, u ∈ t.units) : (t.container.pack us).decode = .ok (t.width.decode us) := by
  have hpack : (t.container.pack us).units = us :=
    Container.units_pack fun u hu => t.units_lt u (hus u hu)
  have hcode : ∀ u ∈ (t.container.pack us).units, u < 0x110000 := by
    rw [hpack]
    exact fun u hu => ht u (hus u hu)
  rw [decode_eq hcode, hpack]
  rfl

theorem mapM_decode_pack (ht : ∀ u ∈ t.units, u < 0x110000) {items : List (List Nat)}
    (hitems : ∀ us ∈ items, ∀ u ∈ us, u ∈ t.units) :
    (items.map t.container.pack).mapM decode = .ok (items.map t.width.decode) := by
  rw [List.mapM_map]
  exact mapM_eq_ok fun us hus => decode_pack ht (hitems us hus)

/-- The items of a text are decoded to the items of its characters. -/
theorem exists_split_decode {seps : List Nat} (hseps : ∀ u ∈ seps, u < 0x80)
    (ht : ∀ u ∈ t.units, u < 0x110000) {count : Option Nat} (hcount : ∀ n ∈ count, 2 ≤ n)
    (removeEmpty : Bool) :
    ∃ (items : List Text) (parts : List Chars), t.split seps count removeEmpty = .ok items ∧
      items.mapM decode = .ok parts ∧
      (ofChars (t.width.decode t.units)).split seps count removeEmpty = .ok (parts.map ofChars) ∧
      (removeEmpty = false → SplitsExactly (effectiveSeparators seps).contains count
        (t.width.codes t.units) (parts.map (List.map CodePoint.val))) := by
  have hlt : ∀ u ∈ seps, u < 0x110000 := fun u hu => (hseps u hu).trans (by decide)
  have hsep : ∀ u, (effectiveSeparators seps).contains u = true → u < 0x80 := fun u hu =>
    effectiveSeparators_lt (by decide) hseps u (List.contains_iff_mem.1 hu)
  have hsplit := split_eq_ok hlt ht hcount removeEmpty
  have hchars := split_eq_ok hlt (ofChars (t.width.decode t.units)).units_lt hcount removeEmpty
  have hcodes := Width.map_codes_splitUnits hsep removeEmpty (count.map (· - 1)) (lt_codeLimit ht)
  refine ⟨_, _, hsplit, mapM_decode_pack ht (mem_of_mem_splitUnits _ _ _ _), ?_, ?_⟩
  · rw [hchars, units_ofChars, ← Width.codes, ← hcodes, List.map_map, List.map_map]
    exact congrArg Except.ok (List.map_congr_left fun us _ => pack_map_val _)
  · rintro rfl
    rw [List.map_map]
    have hsplits := splits_splitUnits (effectiveSeparators seps).contains (count.map (· - 1))
      (t.width.codes t.units)
    rw [← hcodes] at hsplits
    exact hsplits.exactly fun n hn => Nat.le_of_succ_le (hcount n hn)

end Text

/-- **Splitting units is splitting characters.** A text of any container, well-formed or not, is
split at separators of ASCII, or at white space if there are none, into items that are decoded to
the items of its characters, whatever the count is and whether or not empty items are left out. If
they are not, these items are exactly the pieces of the characters between separators. -/
theorem Value.split_decode {t : Text} (ht : ∀ u ∈ t.units, u < 0x110000) {w : Width}
    {separators : Separators} {seps : List Nat} (hvalid : separators.units w = .ok seps)
    (hseps : ∀ u ∈ seps, u < 0x80) {count : Option Int} (hcount : ∀ n ∈ count, 0 ≤ n)
    (removeEmpty : Bool) :
    ∃ (cs : Chars) (items : List Text) (parts : List Chars),
      t.decode = .ok cs ∧
      Value.split (.text t) separators count removeEmpty = .ok (items.map .text) ∧
      items.mapM Text.decode = .ok parts ∧
      Value.split (.ofChars cs) separators count removeEmpty = .ok (parts.map .ofChars) ∧
      (removeEmpty = false → (∀ n ∈ count, 2 ≤ n) →
        SplitsExactly (effectiveSeparators seps).contains (count.map Int.toNat)
          (cs.map CodePoint.val) (parts.map (List.map CodePoint.val))) := by
  have hdecode := Text.decode_eq ht
  by_cases hzero : count = some 0
  · subst hzero
    exact ⟨_, [], [], hdecode, rfl, rfl, rfl, fun _ h => absurd (h 0 rfl) (by decide)⟩
  by_cases hone : count = some 1
  · -- the text is its only item
    subst hone
    refine ⟨_, [t], [_], hdecode, rfl, ?_, rfl, fun _ h => absurd (h 1 rfl) (by decide)⟩
    rw [List.mapM_cons, hdecode]
    rfl
  have hmany : ∀ n ∈ count, 2 ≤ n := by
    intro n hn
    have hnonneg := hcount n hn
    have hn0 : n ≠ 0 := fun h => hzero (h ▸ hn)
    have hn1 : n ≠ 1 := fun h => hone (h ▸ hn)
    omega
  obtain ⟨items, parts, hsplit, hparts, hchars, hexact⟩ :=
    Text.exists_split_decode hseps ht (two_le_toNat_of_mem hmany) removeEmpty
  refine ⟨_, items, parts, hdecode, ?_, hparts, ?_, fun h _ => hexact h⟩
  · rw [split_eq (separators.units_of_ascii hseps hvalid) hmany, hsplit]
    rfl
  · rw [ofChars, split_eq (separators.units_of_ascii hseps hvalid) hmany, hchars, Except.map,
      List.map_map]
    rfl

/-- Bytes of characters that are cut short, one by a separator and one by the end. -/
theorem Value.split_decode_damaged :
    ∃ (cs : Chars) (items : List Text) (parts : List Chars),
      (Container.bytes.pack [0xC3, 44, 44, 0xC3, 0xA9, 44, 0xE2, 0x82]).decode = .ok cs ∧
      Value.split (.text (Container.bytes.pack [0xC3, 44, 44, 0xC3, 0xA9, 44, 0xE2, 0x82]))
        (.list [.integer 44]) (some 3) false = .ok (items.map .text) ∧
      items.mapM Text.decode = .ok parts ∧
      Value.split (.ofChars cs) (.list [.integer 44]) (some 3) false = .ok (parts.map .ofChars) ∧
      SplitsExactly (effectiveSeparators [44]).contains (some 3) (cs.map CodePoint.val)
        (parts.map (List.map CodePoint.val)) := by
  have ht : ∀ u ∈ (Container.bytes.pack [0xC3, 44, 44, 0xC3, 0xA9, 44, 0xE2, 0x82]).units,
      u < 0x110000 := by decide
  have hvalid : (Separators.list [.integer 44]).units .narrow = .ok [44] := by decide +kernel
  have hcount : ∀ n ∈ (some 3 : Option Int), 2 ≤ n := by
    rintro _ ⟨⟩
    decide
  have hpos : ∀ n ∈ (some 3 : Option Int), 0 ≤ n := by
    rintro _ ⟨⟩
    decide
  obtain ⟨cs, items, parts, hdecode, hitems, hparts, hchars, hexact⟩ :=
    Value.split_decode ht hvalid (by decide) hpos false
  exact ⟨cs, items, parts, hdecode, hitems, hparts, hchars, hexact rfl hcount⟩

end UnitText
