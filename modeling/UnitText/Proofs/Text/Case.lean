import UnitText.Proofs.Encoding.AsciiUnits
import UnitText.Text.Case

/-!
# Case in units and in characters

The case of a text is mapped unit by unit. Only units of ASCII are changed, so it comes to the same
to decode a text and to map the case of its characters, whether or not the text is well-formed.

## Main statements

- `mapsAscii_lowerUnit`, `mapsAscii_upperUnit` — only ASCII has case
- `Text.decode_mapUnits` — a map of ASCII before and after decoding
- `Text.case_decode` — the case of a text is that of its characters
-/

namespace UnitText

theorem mapsAscii_lowerUnit : MapsAscii lowerUnit where
  lt := by
    intro u hu
    rw [lowerUnit]
    split <;> omega
  eq_self := by
    intro u hu
    rw [lowerUnit, if_neg (by omega)]

theorem mapsAscii_upperUnit : MapsAscii upperUnit where
  lt := by
    intro u hu
    rw [upperUnit]
    split <;> omega
  eq_self := by
    intro u hu
    rw [upperUnit, if_neg (by omega)]

theorem lowerUnit_upperUnit (u : Nat) : lowerUnit (upperUnit u) = lowerUnit u := by
  simp only [lowerUnit, upperUnit]
  split_ifs <;> omega

theorem upperUnit_lowerUnit (u : Nat) : upperUnit (lowerUnit u) = upperUnit u := by
  simp only [lowerUnit, upperUnit]
  split_ifs <;> omega

theorem lowerUnit_lowerUnit (u : Nat) : lowerUnit (lowerUnit u) = lowerUnit u := by
  simp only [lowerUnit]
  split_ifs <;> omega

theorem upperUnit_upperUnit (u : Nat) : upperUnit (upperUnit u) = upperUnit u := by
  simp only [upperUnit]
  split_ifs <;> omega

/-- The small letter of a character is that of its unit. -/
theorem toNat_toLower (c : Char) : c.toLower.toNat = lowerUnit c.toNat := by
  have hcapital : ('A'.val ≤ c.val ∧ c.val ≤ 'Z'.val) ↔ (0x41 ≤ c.toNat ∧ c.toNat ≤ 0x5A) :=
    and_congr UInt32.le_iff_toNat_le UInt32.le_iff_toNat_le
  rw [lowerUnit]
  by_cases h : 'A'.val ≤ c.val ∧ c.val ≤ 'Z'.val
  · have hlower : c.toLower = ⟨c.val + ('a'.val - 'A'.val), _⟩ := dif_pos h
    have hsum : c.toLower.toNat = (c.toNat + 0x20) % 2 ^ 32 :=
      (congrArg Char.toNat hlower).trans (UInt32.toNat_add _ _)
    have hrange := hcapital.1 h
    rw [if_pos hrange, hsum]
    omega
  · have hself : c.toLower = c := dif_neg h
    rw [if_neg (hcapital.not.1 h), hself]

/-- The capital of a character is that of its unit. -/
theorem toNat_toUpper (c : Char) : c.toUpper.toNat = upperUnit c.toNat := by
  have hsmall : ('a'.val ≤ c.val ∧ c.val ≤ 'z'.val) ↔ (0x61 ≤ c.toNat ∧ c.toNat ≤ 0x7A) :=
    and_congr UInt32.le_iff_toNat_le UInt32.le_iff_toNat_le
  rw [upperUnit]
  by_cases h : 'a'.val ≤ c.val ∧ c.val ≤ 'z'.val
  · have hupper : c.toUpper = ⟨c.val + ('A'.val - 'a'.val), _⟩ := dif_pos h
    -- the difference of the letters is negative, and wraps
    have hsum : c.toUpper.toNat = (c.toNat + (2 ^ 32 - 0x20)) % 2 ^ 32 :=
      (congrArg Char.toNat hupper).trans (UInt32.toNat_add _ _)
    have hrange := hsmall.1 h
    rw [if_pos hrange, hsum]
    omega
  · have hself : c.toUpper = c := dif_neg h
    rw [if_neg (hsmall.not.1 h), hself]

namespace Text

variable {t : Text} {f : Nat → Nat}

/-- A map of ASCII gives the same before and after a text is decoded. -/
theorem decode_mapUnits (hf : MapsAscii f) (h) (ht : ∀ u ∈ t.units, u < 0x110000) :
    (t.mapUnits f h).decode = .ok ((t.width.decode t.units).map (CodePoint.mapVal f)) := by
  have hcode : ∀ u ∈ (t.mapUnits f h).units, u < 0x110000 := by
    intro u hu
    obtain ⟨v, hv, rfl⟩ := List.mem_map.1 hu
    exact hf.lt_of_lt (by decide) (ht v hv)
  rw [decode_eq hcode, units_mapUnits]
  exact congrArg Except.ok (Width.decode_map hf (lt_codeLimit ht))

theorem mapUnits_ofChars (hf : MapsAscii f) (cs : Chars) (h) :
    (ofChars cs).mapUnits f h = ofChars (cs.map (CodePoint.mapVal f)) := by
  refine Text.ext rfl ?_
  rw [units_mapUnits, units_ofChars, units_ofChars, List.map_map, List.map_map]
  exact List.map_congr_left fun c _ => (hf.val_mapVal c).symm

theorem toLower_ofString (s : String) : (ofString s).toLower = ofString s.toLower := by
  have hmap : s.toLower = s.map Char.toLower := rfl
  refine Text.ext rfl ?_
  simp [hmap, ofString, Chars.ofString, String.toList_map, toNat_toLower]

theorem toUpper_ofString (s : String) : (ofString s).toUpper = ofString s.toUpper := by
  have hmap : s.toUpper = s.map Char.toUpper := rfl
  refine Text.ext rfl ?_
  simp [hmap, ofString, Chars.ofString, String.toList_map, toNat_toUpper]

/-- **The case of a text is the case of its characters.** A text of any container, well-formed or
not, that is mapped to small letters or to capitals is decoded to the small letters or the capitals
of what it was decoded to. It keeps its container and its number of units; mapped a second time, it
is as if it had been mapped the second time only. Strings are mapped as ASCII is mapped character by
character. -/
theorem case_decode (t : Text) :
    ((∀ u ∈ t.units, u < 0x110000) → ∃ cs lower upper, t.decode = .ok cs ∧
      t.toLower.decode = .ok lower ∧ (ofChars cs).toLower = ofChars lower ∧
      t.toUpper.decode = .ok upper ∧ (ofChars cs).toUpper = ofChars upper) ∧
    (t.toLower.container = t.container ∧ t.toLower.units.length = t.units.length) ∧
    (t.toUpper.container = t.container ∧ t.toUpper.units.length = t.units.length) ∧
    (t.toLower.toLower = t.toLower ∧ t.toUpper.toUpper = t.toUpper) ∧
    (t.toUpper.toLower = t.toLower ∧ t.toLower.toUpper = t.toUpper) ∧
    ∀ s : String, (ofString s).toLower = ofString s.toLower ∧
      (ofString s).toUpper = ofString s.toUpper := by
  refine ⟨?_, ⟨rfl, List.length_map _⟩, ⟨rfl, List.length_map _⟩, ⟨?_, ?_⟩, ⟨?_, ?_⟩,
    fun s => ⟨toLower_ofString s, toUpper_ofString s⟩⟩
  · intro ht
    exact ⟨_, _, _, decode_eq ht, decode_mapUnits mapsAscii_lowerUnit _ ht,
      mapUnits_ofChars mapsAscii_lowerUnit _ _, decode_mapUnits mapsAscii_upperUnit _ ht,
      mapUnits_ofChars mapsAscii_upperUnit _ _⟩
  all_goals refine Text.ext rfl ?_
  · exact (List.map_map ..).trans (List.map_congr_left fun u _ => lowerUnit_lowerUnit u)
  · exact (List.map_map ..).trans (List.map_congr_left fun u _ => upperUnit_upperUnit u)
  · exact (List.map_map ..).trans (List.map_congr_left fun u _ => lowerUnit_upperUnit u)
  · exact (List.map_map ..).trans (List.map_congr_left fun u _ => upperUnit_lowerUnit u)

/-- A byte of a longer character before a letter, and one of no character behind it. -/
theorem case_decode_damaged :
    ∃ cs lower upper, (Container.bytes.pack [0xC3, 0x41, 0x7A, 0xFF]).decode = .ok cs ∧
      (Container.bytes.pack [0xC3, 0x61, 0x7A, 0xFF]).decode = .ok lower ∧
      (ofChars cs).toLower = ofChars lower ∧
      (Container.bytes.pack [0xC3, 0x41, 0x5A, 0xFF]).decode = .ok upper ∧
      (ofChars cs).toUpper = ofChars upper :=
  (case_decode (Container.bytes.pack [0xC3, 0x41, 0x7A, 0xFF])).1 (by decide)

end Text

end UnitText
