import UnitText.Proofs.Format.Failures
import UnitText.Proofs.Format.Fill

/-!
# Texts with a precision

The precision of a text conversion is the greatest number of code units that it writes. What is
written is the longest beginning of the text that has room in them, and it consists of characters:
one that would be cut in two is left out.

## Main statements

- `Field.render_string_iff` — when a text conversion writes characters, and which ones
- `Field.render_precision_iff` — what a precision leaves of a text
- `Field.string_truncates` — the longest beginnings of texts, by themselves and in fields
-/

namespace UnitText

namespace Field

variable {f : Field} {a : Argument} {cs ds : Chars}

theorem padPiece_bare (f : Field) (cs : Chars) :
    f.bare.padPiece (.chars cs) = .ok (.chars cs) :=
  bind_eq_ok.2 ⟨cs, f.padText_bare cs, rfl⟩

/-- Without a width, a text conversion writes the text of an argument that it accepts, as far as the
precision allows. -/
theorem render_string_iff (hkind : f.spec.kind = .string) :
    f.bare.render a = .ok (.chars ds) ↔ a.suits .string = .ok true ∧ ∃ cs,
      stringPiece a = .ok (.chars cs) ∧ (∀ c ∈ cs, f.charWidth.Holds c) ∧
        f.truncated (.chars cs) = .ok (.chars ds) := by
  have hrender : f.bare.render a = f.bare.string a := by
    have hbare : f.bare.spec.kind = .string := hkind
    simp only [render, hbare]
  have hcheck : a.check f.bare.spec = .ok () ↔ a.suits .string = .ok true := by
    have hspec : f.bare.spec = f.spec := rfl
    rw [hspec, Argument.check_eq_ok, hkind]
  rw [hrender]
  constructor
  · intro h
    obtain ⟨_, hsuits, h⟩ := bind_eq_ok.1 h
    obtain ⟨p, hp, h⟩ := bind_eq_ok.1 h
    obtain ⟨q, hq, h⟩ := bind_eq_ok.1 h
    obtain ⟨t, ht, hpad⟩ := bind_eq_ok.1 h
    obtain rfl := f.bare.writable_eq_ok hq
    obtain ⟨es, rfl, hfill⟩ := exists_chars_of_padPiece hpad
    rw [padText_bare] at hfill
    obtain rfl := Except.ok.inj hfill
    obtain ⟨cs, rfl, -⟩ := mem_of_truncated ht
    exact ⟨hcheck.1 hsuits, cs, hp, holds_of_writable (f := f.bare) hq, ht⟩
  · rintro ⟨hsuits, cs, hp, hholds, ht⟩
    exact bind_eq_ok.2 ⟨(), hcheck.2 hsuits, bind_eq_ok.2 ⟨_, hp,
      bind_eq_ok.2 ⟨_, writable_chars_iff.2 hholds, bind_eq_ok.2 ⟨_, ht, f.padPiece_bare ds⟩⟩⟩⟩

/-- A precision leaves the longest beginning of what is written without one. -/
theorem render_precision_iff (hkind : f.spec.kind = .string) (hprecision : f.precision = none)
    (limit : Nat) : { f with precision := some limit }.bare.render a = .ok (.chars ds) ↔
      ∃ cs, f.bare.render a = .ok (.chars cs) ∧ f.charWidth.IsLongest limit cs ds := by
  have hnone : ∀ {cs ds}, f.truncated (.chars cs) = .ok (.chars ds) ↔ cs = ds := by
    intro cs ds
    simp [truncated, hprecision]
  have hsome : ∀ {cs}, { f with precision := some limit }.truncated (.chars cs) =
      .ok (.chars ds) ↔ f.charWidth.IsLongest limit cs ds := by
    intro cs
    rw [← Width.truncate_eq_ok_iff]
    constructor
    · intro h
      obtain ⟨es, hes, h⟩ := bind_eq_ok.1 h
      cases pure_eq_ok.1 h
      exact hes
    · intro h
      exact bind_eq_ok.2 ⟨ds, h, rfl⟩
  have hkind' : { f with precision := some limit }.spec.kind = .string := hkind
  rw [render_string_iff hkind']
  simp only [render_string_iff hkind, hnone, hsome]
  constructor
  · rintro ⟨hsuits, cs, hp, hholds, hlongest⟩
    exact ⟨cs, ⟨hsuits, cs, hp, hholds, rfl⟩, hlongest⟩
  · rintro ⟨_, ⟨hsuits, cs, hp, hholds, rfl⟩, hlongest⟩
    exact ⟨hsuits, cs, hp, hholds, hlongest⟩

/-- **Texts are cut off behind whole characters.** Characters that can be encoded in a width are cut
off to the longest beginning that takes at most as many units as the limit says. So a text
conversion with a precision and no width writes the longest beginning, in the units of the template,
of what it writes without the precision; it writes characters with the one if and only if it does
without it; and with a greater precision it writes more. -/
theorem string_truncates (w : Width) :
    (∀ cs us, w.encode cs = .ok us → ∀ limit : Nat,
      ∃ ds, w.truncate limit cs = .ok ds ∧ w.IsLongest limit cs ds) ∧
    ∀ (s : Specifier) (written : Nat) (a : Argument), s.kind = .string →
      let fragment (precision : Option Nat) : Except Failure Piece :=
        (create s none (precision.map Int.ofNat) w written).render a
      (∀ cs, fragment none = .ok (.chars cs) → ∀ limit,
        ∃ ds, fragment (some limit) = .ok (.chars ds) ∧ w.IsLongest limit cs ds) ∧
      (∀ limit ds, fragment (some limit) = .ok (.chars ds) →
        ∃ cs, fragment none = .ok (.chars cs)) ∧
      ∀ limit limit' ds es, limit ≤ limit' → fragment (some limit) = .ok (.chars ds) →
        fragment (some limit') = .ok (.chars es) → ds <+: es := by
  refine ⟨?_, ?_⟩
  · intro cs us hencode limit
    obtain ⟨ds, hds⟩ := Width.exists_truncate (Width.holds_of_encode hencode) limit
    exact ⟨ds, hds, Width.truncate_eq_ok_iff.1 hds⟩
  · intro s written a hkind fragment
    let f := create s none none w written
    have hsome : ∀ limit ds, fragment (some limit) = .ok (.chars ds) ↔
        ∃ cs, fragment none = .ok (.chars cs) ∧ w.IsLongest limit cs ds :=
      fun limit ds => render_precision_iff (f := f) hkind rfl limit
    refine ⟨?_, ?_, ?_⟩
    · intro cs hcs limit
      obtain ⟨-, text, -, hholds, htext⟩ := (render_string_iff (f := f) hkind).1 hcs
      cases htext
      obtain ⟨ds, hds⟩ := Width.exists_truncate hholds limit
      have hlongest := Width.truncate_eq_ok_iff.1 hds
      exact ⟨ds, (hsome limit ds).2 ⟨cs, hcs, hlongest⟩, hlongest⟩
    · intro limit ds hds
      obtain ⟨cs, hcs, -⟩ := (hsome limit ds).1 hds
      exact ⟨cs, hcs⟩
    · intro limit limit' ds es hle hds hes
      obtain ⟨cs, hcs, hlongest⟩ := (hsome limit ds).1 hds
      obtain ⟨cs', hcs', hlongest'⟩ := (hsome limit' es).1 hes
      cases hcs.symm.trans hcs'
      exact hlongest.prefix_of_le hlongest' hle

/-- Bytes of the second character would be the third to the fifth. -/
theorem string_truncates_straddling :
    let text := Chars.ofString "é☺a"
    let fragment (precision : Option Nat) : Except Failure Piece :=
      (create { kind := .string } none (precision.map Int.ofNat) .narrow 0).render
        { family := .text, value := .ofChars text }
    (∃ ds, Width.narrow.truncate (4 : Nat) text = .ok ds ∧ Width.narrow.IsLongest 4 text ds) ∧
      (∃ ds, fragment (some 4) = .ok (.chars ds) ∧ Width.narrow.IsLongest 4 text ds) ∧
      (∃ cs, fragment none = .ok (.chars cs)) ∧
      fragment (some 4) = .ok (.chars (Chars.ofString "é")) ∧
      fragment (some 5) = .ok (.chars (Chars.ofString "é☺")) ∧
      Chars.ofString "é" <+: Chars.ofString "é☺" := by
  intro text fragment
  have hencode : Width.narrow.encode text = .ok [0xC3, 0xA9, 0xE2, 0x98, 0xBA, 0x61] := by
    decide +kernel
  have hall : fragment none = .ok (.chars text) := by decide +kernel
  have hfour : fragment (some 4) = .ok (.chars (Chars.ofString "é")) := by decide +kernel
  have hfive : fragment (some 5) = .ok (.chars (Chars.ofString "é☺")) := by decide +kernel
  obtain ⟨htruncate, hfields⟩ := string_truncates .narrow
  obtain ⟨hwrites, hbare, hgrows⟩ := hfields { kind := .string } 0
    { family := .text, value := .ofChars text } rfl
  exact ⟨htruncate text _ hencode 4, hwrites text hall 4, hbare 4 _ hfour, hfour, hfive,
    hgrows 4 5 _ _ (by decide) hfour hfive⟩

end Field

end UnitText
