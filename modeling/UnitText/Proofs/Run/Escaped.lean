import UnitText.Proofs.Run.Counting
import UnitText.Proofs.Run.Simulation
import UnitText.Proofs.Template.Escapes

/-!
# Templates without conversions

A template in which every percent sign is written twice is one piece of literal text. Formatting it
consumes nothing and gives the text that was written.

## Main statements

- `Formatter.format_escaped` — formatting gives back the text that was escaped
-/

namespace UnitText

open Scan (complete)

/-- **Escaped text formats to itself.** Let a text of any container be written as a template, with
each of its percent signs written twice. Formatting the template without values gives back the text,
in its container and unit for unit, damaged sequences and lone surrogates included. -/
theorem Formatter.format_escaped {t : Text}
    (h : t.container = .units32 → ∀ u ∈ t.units, u < 0x110000) (slots : Slots) :
    ∃ f r, create t.escaped = .ok f ∧ f.format slots [] = (.ok t, r) := by
  obtain ⟨cs, hdecode, hencode⟩ := Text.encodeLike_decode h
  let f : Formatter := {
    container := t.container, template := doubling (CodePoint.ofChar '%') cs }
  have hf : create t.escaped = .ok f := create_eq_ok.2 ⟨Text.decode_escaped h hdecode, rfl⟩
  have hsteps : Progress.Steps f.width (Scan.ofChars f.template).tokens ⟨[], slots, [], []⟩
      ⟨[], slots, cs, []⟩ ∧ (Scan.ofChars f.template).failure = none := by
    by_cases hcs : cs = []
    · subst hcs
      exact ⟨.nil _, rfl⟩
    · have hscan : Scan.ofChars f.template = complete [.literal cs 0] :=
        (ScansTo.doubling hcs 0).unique
      rw [hscan]
      exact ⟨.cons (.literal cs 0 _) (.nil _), rfl⟩
  obtain ⟨r, hr, -⟩ := exists_format hsteps.1 hsteps.2 hencode
  exact ⟨f, r, hf, hr⟩

/-- Percent signs between damaged bytes, in an array whose units need no restriction, and one
behind the last code point. -/
theorem Formatter.format_escaped_damaged :
    (∃ t : Text, t.container = .units8 ∧ t.units = [0xE2, 0x25, 0x82, 0x25, 0x25, 0xFF] ∧
      t.escaped.units = [0xE2, 0x25, 0x25, 0x82, 0x25, 0x25, 0x25, 0x25, 0xFF] ∧
      ∃ f r, create t.escaped = .ok f ∧ f.format [] [] = (.ok t, r)) ∧
    ∃ t : Text, t.container = .units32 ∧ t.units = [0x10FFFF, 0x25] ∧
      (∀ u ∈ t.units, u < 0x110000) ∧
      ∃ f r, create t.escaped = .ok f ∧ f.format [] [] = (.ok t, r) := by
  refine ⟨⟨⟨.units8, [0xE2, 0x25, 0x82, 0x25, 0x25, 0xFF], by decide⟩, rfl, rfl, rfl, ?_⟩,
    ⟨⟨.units32, [0x10FFFF, 0x25], by decide⟩, rfl, rfl, by decide, ?_⟩⟩
  · exact format_escaped (by decide) []
  · exact format_escaped (by decide) []

end UnitText
