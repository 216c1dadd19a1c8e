import UnitText.Proofs.Encoding.Width
import UnitText.Proofs.Result

/-!
# Decoding loses nothing

A text of any container is decoded to characters that its container can hold, and whose units are
the units of the text. So encoding them again gives back the text. In the other direction,
characters other than surrogates survive being encoded in any width.

## Main statements

- `Text.decode_eq_ok` — what decoding a text gives
- `Text.holds_of_decode` — what was decoded fits the width it was decoded from
- `Text.coding_lossless` — the two round trips
-/

namespace UnitText

namespace Text

theorem mapM_readUnit_eq_ok {us : List Nat} (h : ∀ u ∈ us, u < 0x110000) :
    us.mapM readUnit = .ok (us.map CodePoint.ofNat) := by
  refine mapM_eq_ok fun u hu => ?_
  simp only [readUnit, CodePoint.ofNat?, CodePoint.ofNat, dif_pos (h u hu)]

theorem units_unitChars {t : Text} (h : ∀ u ∈ t.units, u < 0x110000) :
    Width.wide32.units t.unitChars = t.units := by
  rw [Width.units_wide32, unitChars, List.map_map]
  calc t.units.map (CodePoint.val ∘ CodePoint.ofNat)
      = t.units.map id := List.map_congr_left fun u hu => CodePoint.val_ofNat (h u hu)
    _ = t.units := List.map_id _

/-- A string is that of its characters. -/
theorem ofChars_unitChars {t : Text} (h : t.container = .chars) : ofChars t.unitChars = t := by
  have hlt : ∀ u ∈ t.units, u < 0x110000 := fun u hu => by
    have hu := t.units_lt u hu
    rwa [h] at hu
  refine Text.ext h.symm ?_
  rw [units_ofChars, ← Width.units_wide32, units_unitChars hlt]

/-- A text is decoded to characters that its width can hold, and whose units are its units. Only
the widest arrays can hold units that are no code points. -/
theorem decode_eq_ok {t : Text} (h : t.container = .units32 → ∀ u ∈ t.units, u < 0x110000) :
    ∃ cs, t.decode = .ok cs ∧ (∀ c ∈ cs, t.width.Holds c) ∧ t.width.units cs = t.units := by
  obtain ⟨k, us, hlt⟩ := t
  have hnarrow : (∀ u ∈ us, u < 0x100) →
      (∀ c ∈ Utf8.decode us, Width.narrow.Holds c) ∧ Width.narrow.units (Utf8.decode us) = us :=
    fun hus => ⟨Utf8.isEncodable_of_mem_decode hus, Utf8.bytes_decode hus⟩
  cases k with
  | chars => exact ⟨_, rfl, fun _ _ => trivial, units_unitChars hlt⟩
  | bytes => exact ⟨_, rfl, hnarrow hlt⟩
  | byteBuffer => exact ⟨_, rfl, hnarrow hlt⟩
  | units8 => exact ⟨_, rfl, hnarrow hlt⟩
  | units16 => exact ⟨_, rfl, fun _ _ => trivial, Utf16.units_decode hlt⟩
  | units32 => exact ⟨_, mapM_readUnit_eq_ok (h rfl), fun _ _ => trivial, units_unitChars (h rfl)⟩

/-- What a text is decoded to fits the width of the text. -/
theorem holds_of_decode {t : Text} {cs : Chars} (h : t.decode = .ok cs) :
    ∀ c ∈ cs, t.width.Holds c := by
  by_cases hk : t.container = .units32
  · rw [width, hk]
    exact fun _ _ => trivial
  · obtain ⟨ds, hds, hholds, _⟩ := decode_eq_ok (t := t) fun h' => absurd h' hk
    rw [h] at hds
    obtain rfl := Except.ok.inj hds
    exact hholds

theorem encodeLike_decode {t : Text} (h : t.container = .units32 → ∀ u ∈ t.units, u < 0x110000) :
    ∃ cs, t.decode = .ok cs ∧ encodeLike cs t.container = .ok t := by
  obtain ⟨cs, hdecode, hholds, hunits⟩ := decode_eq_ok h
  obtain ⟨t', hencode, hcontainer, hunits'⟩ := encodeLike_eq_ok hholds
  refine ⟨cs, hdecode, ?_⟩
  rw [hencode, Text.ext hcontainer (hunits'.trans hunits)]

end Text

/-- Characters other than surrogates are decoded from what they were encoded as. -/
theorem Width.decode_encodeText (w : Width) {cs : Chars} (h : ∀ c ∈ cs, ¬c.IsSurrogate) :
    ∃ t, w.encodeText cs = .ok t ∧ t.decode = .ok cs := by
  have hholds : ∀ c ∈ cs, w.Holds c := fun c hc => holds_of_not_isSurrogate (h c hc)
  refine ⟨w.container.pack (w.units cs), by rw [encodeText, encode_eq_ok hholds]; rfl, ?_⟩
  -- the container cuts units down to its own size, which changes none of these
  have hpack : (w.container.pack (w.units cs)).units = w.units cs := by
    apply Container.units_pack
    intro u hu
    have hlt := lt_unitLimit_of_mem_units hu
    cases w with
    | narrow => exact hlt
    | wide16 => exact hlt
    | wide32 => exact hlt
  cases w with
  | narrow => exact congrArg Except.ok ((congrArg Utf8.decode hpack).trans (Utf8.decode_bytes h))
  | wide16 => exact congrArg Except.ok ((congrArg Utf16.decode hpack).trans (Utf16.decode_units h))
  | wide32 =>
    have hunits : wide32.units cs = cs.map CodePoint.val := units_wide32 cs
    have hlt : ∀ u ∈ cs.map CodePoint.val, u < 0x110000 := by
      intro u hu
      obtain ⟨c, _, rfl⟩ := List.mem_map.1 hu
      exact c.val_lt
    have hread := Text.mapM_readUnit_eq_ok hlt
    rw [List.map_map] at hread
    have hid : cs.map (CodePoint.ofNat ∘ CodePoint.val) = cs :=
      List.map_id'' CodePoint.ofNat_val cs
    rw [hid] at hread
    exact (congrArg (List.mapM Text.readUnit) (hpack.trans hunits)).trans hread

/-- The same in any container. -/
theorem Text.decode_encodeLike (k : Container) {cs : Chars} (h : ∀ c ∈ cs, ¬c.IsSurrogate) :
    ∃ t, encodeLike cs k = .ok t ∧ t.decode = .ok cs := by
  by_cases hk : k = .chars
  · subst hk
    exact ⟨ofChars cs, rfl, congrArg Except.ok (unitChars_ofChars cs)⟩
  -- containers of one width hold the same units, and are decoded alike
  have hsame : (k.pack (k.width.units cs)).decode =
      (k.width.container.pack (k.width.units cs)).decode := by
    cases k with
    | chars => exact absurd rfl hk
    | _ => rfl
  have hholds : ∀ c ∈ cs, k.width.Holds c := fun c hc => Width.holds_of_not_isSurrogate (h c hc)
  have hencode := Width.encode_eq_ok hholds
  obtain ⟨t, ht, hdecode⟩ := k.width.decode_encodeText h
  refine ⟨k.pack (k.width.units cs), ?_, ?_⟩
  · rw [encodeLike_of_ne_chars hk, hencode]
    rfl
  · rw [Width.encodeText, hencode] at ht
    obtain rfl := Except.ok.inj ht
    exact hsame.trans hdecode

/-- **Decoding loses nothing.** Every text whose units can be read at all is encoded again, in its
container, to the text that it was: damaged bytes, lone surrogates and all. Characters other than
surrogates are decoded from what they were encoded as, in every width. -/
theorem Text.coding_lossless :
    (∀ t : Text, (t.container = .units32 → ∀ u ∈ t.units, u < 0x110000) →
      ∃ cs, t.decode = .ok cs ∧ encodeLike cs t.container = .ok t) ∧
    ∀ (w : Width) (cs : Chars), (∀ c ∈ cs, ¬c.IsSurrogate) →
      ∃ t, w.encodeText cs = .ok t ∧ t.decode = .ok cs :=
  ⟨fun _ => encodeLike_decode, fun w _ => w.decode_encodeText⟩

/-- A lone surrogate in an array, and a character of three bytes. -/
theorem Text.coding_lossless_surrogate :
    (∃ t : Text, t.container = .units32 ∧ t.units = [0xD800, 0x10FFFF] ∧
      ∃ cs, t.decode = .ok cs ∧ encodeLike cs t.container = .ok t) ∧
    ∃ t, Width.narrow.encodeText (Chars.ofString "a€") = .ok t ∧
      t.decode = .ok (Chars.ofString "a€") := by
  refine ⟨⟨⟨.units32, [0xD800, 0x10FFFF], by decide⟩, rfl, rfl, ?_⟩, ?_⟩
  · exact coding_lossless.1 _ (by decide)
  · exact coding_lossless.2 .narrow _ (by decide)

end UnitText
