import UnitText.Proofs.Encoding.Utf16
import UnitText.Proofs.Encoding.Utf8
import UnitText.Text.Coding
import Mathlib.Data.List.TakeWhile

/-!
# Characters and units, width by width

The units of a text are the units of its characters, one after the other, in every width. So units
are counted and encoded piece by piece. Only narrow text has characters that it cannot hold.

## Main definitions

- `Width.Holds` — whether text of a width can hold a character

## Main statements

- `Width.fault?_eq_none_iff` — what can be encoded
- `Width.length_append`, `Width.units_append` — pieces are encoded one after the other
- `Text.encodeLike_eq_ok`, `Width.encodeText_eq_ok` — encoding what can be held gives just the units
  of the characters
-/

namespace UnitText

/-- A fault is found where the longest front without one ends. -/
theorem Utf8.faultOf?_eq_none_iff {encodes : CodePoint → Bool} {cs : Chars} :
    faultOf? encodes cs = none ↔ ∀ c ∈ cs, encodes c := by
  rw [← List.takeWhile_eq_self_iff]
  simp only [faultOf?]
  constructor
  · intro h
    split at h
    · next hdrop =>
      rw [List.drop_eq_nil_iff] at hdrop
      exact (List.takeWhile_prefix _).eq_of_length_le hdrop
    · cases h
  · intro h
    rw [h, List.drop_length]

/-- There is no fault where there are no surrogates. -/
theorem Utf8.surrogates?_eq_none_iff {cs : Chars} :
    surrogates? cs = none ↔ ∀ c ∈ cs, ¬c.IsSurrogate := by
  rw [surrogates?, faultOf?_eq_none_iff]
  simp only [Bool.not_eq_eq_eq_not, Bool.not_true, decide_eq_false_iff_not]

namespace Width

/-- Text of this width can hold the character. -/
def Holds : Width → CodePoint → Prop
  | narrow, c => Utf8.IsEncodable c
  | wide16, _ => True
  | wide32, _ => True

theorem holds_of_not_isSurrogate {w : Width} {c : CodePoint} (hc : ¬c.IsSurrogate) : w.Holds c := by
  cases w with
  | narrow => exact .inl hc
  | wide16 => trivial
  | wide32 => trivial

/-- Characters have no fault if each of them can be held. -/
theorem fault?_eq_none_iff {w : Width} {cs : Chars} :
    w.fault? cs = none ↔ ∀ c ∈ cs, w.Holds c := by
  cases w with
  | narrow =>
    rw [fault?, Utf8.fault?, Utf8.faultOf?_eq_none_iff]
    simp only [decide_eq_true_eq, Holds]
  | wide16 => simp [fault?, Holds]
  | wide32 => simp [fault?, Holds]

theorem units_cons (w : Width) (c : CodePoint) (cs : Chars) :
    w.units (c :: cs) = w.unitsOf c ++ w.units cs :=
  rfl

@[simp] theorem units_append (w : Width) (cs ds : Chars) :
    w.units (cs ++ ds) = w.units cs ++ w.units ds := by
  simp [units]

theorem units_prefix {w : Width} {cs ds : Chars} (h : cs <+: ds) : w.units cs <+: w.units ds := by
  obtain ⟨rest, rfl⟩ := h
  rw [units_append]
  exact List.prefix_append _ _

/-- The number of units is counted character by character. -/
theorem length_eq_length_units (w : Width) (cs : Chars) : w.length cs = (w.units cs).length := by
  induction cs with
  | nil => rfl
  | cons c cs ih =>
    have hcons : w.length (c :: cs) = (w.unitsOf c).length + w.length cs := rfl
    rw [hcons, ih, units, units, List.flatMap_cons, List.length_append]

@[simp] theorem length_append (w : Width) (cs ds : Chars) :
    w.length (cs ++ ds) = w.length cs + w.length ds := by
  simp only [length_eq_length_units, units_append, List.length_append]

theorem units_wide32 (cs : Chars) : wide32.units cs = cs.map CodePoint.val :=
  List.map_eq_flatMap.symm

@[simp] theorem length_wide32 (cs : Chars) : wide32.length cs = cs.length := by
  rw [length_eq_length_units, units_wide32, List.length_map]

theorem lt_unitLimit_of_mem_units {w : Width} {cs : Chars} {u : Nat} (hu : u ∈ w.units cs) :
    u < w.unitLimit := by
  obtain ⟨c, _, hu⟩ := List.mem_flatMap.1 hu
  have hlt := c.val_lt
  cases w with
  | narrow => exact Utf8.lt_of_mem_bytesOf hu
  | wide16 => exact Utf16.lt_of_mem_unitsOf hu
  | wide32 =>
    simp only [unitsOf, List.mem_cons, List.not_mem_nil, or_false] at hu
    simp only [unitLimit, bits]
    omega

/-- Units of characters are code points. -/
theorem lt_of_mem_units {w : Width} {cs : Chars} {u : Nat} (hu : u ∈ w.units cs) :
    u < 0x110000 := by
  cases w with
  | narrow => exact (lt_unitLimit_of_mem_units hu).trans (by decide)
  | wide16 => exact (lt_unitLimit_of_mem_units hu).trans (by decide)
  | wide32 =>
    rw [units_wide32] at hu
    obtain ⟨c, -, rfl⟩ := List.mem_map.1 hu
    exact c.val_lt

theorem encode_eq_ok {w : Width} {cs : Chars} (h : ∀ c ∈ cs, w.Holds c) :
    w.encode cs = .ok (w.units cs) := by
  rw [encode, fault?_eq_none_iff.2 h]

theorem holds_of_encode {w : Width} {cs : Chars} {us : List Nat} (h : w.encode cs = .ok us) :
    ∀ c ∈ cs, w.Holds c := by
  rw [encode] at h
  split at h
  · next hfault => exact fault?_eq_none_iff.1 hfault
  · cases h

theorem unitCount_eq_ok {w : Width} {cs : Chars} (h : ∀ c ∈ cs, w.Holds c) :
    w.unitCount cs = .ok (w.length cs) := by
  rw [unitCount, fault?_eq_none_iff.2 h]

/-- Characters are counted if each of them can be held. -/
theorem unitCount_eq_ok_iff {w : Width} {cs : Chars} {n : Nat} :
    w.unitCount cs = .ok n ↔ (∀ c ∈ cs, w.Holds c) ∧ w.length cs = n := by
  constructor
  · intro h
    rw [unitCount] at h
    split at h
    · next hfault => exact ⟨fault?_eq_none_iff.1 hfault, Except.ok.inj h⟩
    · cases h
  · rintro ⟨hholds, rfl⟩
    exact unitCount_eq_ok hholds

end Width

theorem Container.unitLimit_eq {k : Container} (hk : k ≠ .chars) :
    k.unitLimit = k.width.unitLimit := by
  cases k with
  | chars => exact absurd rfl hk
  | bytes => rfl
  | byteBuffer => rfl
  | units8 => rfl
  | units16 => rfl
  | units32 => rfl

namespace Text

theorem encodeLike_of_ne_chars {k : Container} (hk : k ≠ .chars) (cs : Chars) :
    encodeLike cs k = (k.width.encode cs).map k.pack := by
  cases k with
  | chars => exact absurd rfl hk
  | bytes => rfl
  | byteBuffer => rfl
  | units8 => rfl
  | units16 => rfl
  | units32 => rfl

/-- Characters that can be held are encoded in the container, as their units. -/
theorem encodeLike_eq_ok {k : Container} {cs : Chars} (h : ∀ c ∈ cs, k.width.Holds c) :
    ∃ t, encodeLike cs k = .ok t ∧ t.container = k ∧ t.units = k.width.units cs := by
  by_cases hk : k = .chars
  · subst hk
    exact ⟨ofChars cs, rfl, rfl, (Width.units_wide32 cs).symm⟩
  · refine ⟨k.pack (k.width.units cs), ?_, rfl, ?_⟩
    · rw [encodeLike_of_ne_chars hk, Width.encode_eq_ok h]
      rfl
    · apply Container.units_pack
      intro u hu
      rw [Container.unitLimit_eq hk]
      exact Width.lt_unitLimit_of_mem_units hu

end Text

theorem Width.width_container (w : Width) : w.container.width = w := by
  cases w <;> rfl

/-- Characters that text of a width can hold are encoded in it, as their units. -/
theorem Width.encodeText_eq_ok {w : Width} {cs : Chars} (h : ∀ c ∈ cs, w.Holds c) :
    ∃ t, w.encodeText cs = .ok t ∧ t.width = w ∧ t.units = w.units cs := by
  have hlike : w.encodeText cs = Text.encodeLike cs w.container := by cases w <;> rfl
  have hwidth := w.width_container
  obtain ⟨t, ht, hcontainer, hunits⟩ :=
    Text.encodeLike_eq_ok (k := w.container) (by rwa [hwidth])
  refine ⟨t, hlike.trans ht, ?_, by rw [hunits, hwidth]⟩
  rw [Text.width, hcontainer, hwidth]

end UnitText
