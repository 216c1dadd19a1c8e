import UnitText.Proofs.Encoding.Doubling
import UnitText.Proofs.Template.Append

/-!
# Literal text that was escaped

Characters of which each percent sign is written twice are a template for themselves: the scan gives
one literal text, and what stands behind it is scanned as if nothing stood before it.

## Main statements

- `isLiteral_doubling` — doubling percent signs writes literal text
- `ScansTo.doubling` — doubled characters are scanned to one literal text
-/

namespace UnitText

open Scan (complete)

/-- A literal character before a text is scanned, however it is written. -/
theorem ScansTo.cons {offset : Nat} {c : CodePoint} {source cs : Chars} {scan : Scan}
    (hc : IsLiteral [c] source) (h : ScansTo (offset + source.length) cs scan) :
    ScansTo offset (source ++ cs) (scan.cons c offset) := by
  cases hc with
  | char hc htext =>
    cases htext
    exact .char hc h
  | escape htext =>
    cases htext
    exact .escape h

theorem isLiteral_doubling (cs : Chars) : IsLiteral cs (doubling (CodePoint.ofChar '%') cs) := by
  induction cs with
  | nil => exact .nil
  | cons c cs ih =>
    by_cases hc : c = CodePoint.ofChar '%'
    · subst hc
      rw [doubling_cons_self]
      exact .escape ih
    · rw [doubling_cons_of_ne hc]
      exact .char hc ih

/-- Characters with each percent sign written twice are scanned to themselves. -/
theorem ScansTo.doubling {cs : Chars} (hcs : cs ≠ []) (offset : Nat) :
    ScansTo offset (doubling (CodePoint.ofChar '%') cs) (complete [.literal cs offset]) := by
  induction cs generalizing offset with
  | nil => exact absurd rfl hcs
  | cons c cs ih =>
    have hc := isLiteral_doubling [c]
    have hsplit : UnitText.doubling (CodePoint.ofChar '%') (c :: cs) =
        UnitText.doubling (CodePoint.ofChar '%') [c] ++
          UnitText.doubling (CodePoint.ofChar '%') cs := by
      rw [← doubling_append, List.singleton_append]
    rw [hsplit]
    by_cases hne : cs = []
    · subst hne
      exact ScansTo.cons hc .nil
    · exact ScansTo.cons hc (ih hne _)

end UnitText
