import UnitText.Proofs.Encoding.Truncation

/-!
# ASCII in every width

A character of ASCII takes one unit in every width, so ASCII text is counted and cut off alike in
all of them.

## Main definitions

- `CodePoint.IsAscii`, `Chars.IsAscii` — characters of ASCII

## Main statements

- `Width.unitsOf_of_isAscii` — a character of ASCII is written as its number
- `Width.length_of_isAscii`, `Width.truncate_of_isAscii` — ASCII text is counted and cut off
-/

namespace UnitText

/-- A character of ASCII. -/
def CodePoint.IsAscii (c : CodePoint) : Prop := c.val < 0x80

instance (c : CodePoint) : Decidable c.IsAscii := Nat.decLt _ _

theorem CodePoint.IsAscii.not_isSurrogate {c : CodePoint} (h : c.IsAscii) : ¬c.IsSurrogate := by
  simp only [IsAscii] at h
  simp only [IsSurrogate]
  omega

/-- Text of ASCII characters. -/
def Chars.IsAscii (cs : Chars) : Prop := ∀ c ∈ cs, c.IsAscii

instance (cs : Chars) : Decidable cs.IsAscii := List.decidableBAll _ cs

namespace Chars

variable {cs ds : Chars}

@[simp] theorem isAscii_nil : IsAscii [] := List.forall_mem_nil _

@[simp] theorem isAscii_cons {c : CodePoint} : IsAscii (c :: cs) ↔ c.IsAscii ∧ cs.IsAscii :=
  List.forall_mem_cons

@[simp] theorem isAscii_append : IsAscii (cs ++ ds) ↔ cs.IsAscii ∧ ds.IsAscii :=
  List.forall_mem_append

theorem IsAscii.take (h : cs.IsAscii) (n : Nat) : IsAscii (cs.take n) :=
  fun c hc => h c (List.mem_of_mem_take hc)

end Chars

namespace Width

variable {w : Width} {cs : Chars}

/-- A character of ASCII is written as its number. -/
theorem unitsOf_of_isAscii {c : CodePoint} (h : c.IsAscii) : w.unitsOf c = [c.val] := by
  cases w with
  | narrow => exact if_pos h
  | wide16 => exact if_pos (by simp only [CodePoint.IsAscii] at h; omega)
  | wide32 => rfl

theorem length_unitsOf_of_isAscii {c : CodePoint} (h : c.IsAscii) : (w.unitsOf c).length = 1 := by
  rw [unitsOf_of_isAscii h, List.length_singleton]

/-- ASCII text takes as many units as it has characters. -/
theorem length_of_isAscii (h : cs.IsAscii) : w.length cs = cs.length := by
  induction cs with
  | nil => rfl
  | cons c cs ih =>
    obtain ⟨hc, hcs⟩ := Chars.isAscii_cons.1 h
    have hcons : w.length (c :: cs) = (w.unitsOf c).length + w.length cs := rfl
    rw [hcons, length_unitsOf_of_isAscii hc, ih hcs, List.length_cons, Nat.add_comm]

theorem holds_of_isAscii (h : cs.IsAscii) : ∀ c ∈ cs, w.Holds c :=
  fun c hc => holds_of_not_isSurrogate (h c hc).not_isSurrogate

/-- ASCII text is cut off behind as many characters as units. -/
theorem truncate_of_isAscii (h : cs.IsAscii) (n : Nat) : w.truncate n cs = .ok (cs.take n) := by
  refine truncate_eq_ok_iff.2 (.take (fun c hc => ?_) n)
  have hone : Chars.IsAscii [c] := List.forall_mem_singleton.2 (h c hc)
  rw [unitCount_eq_ok (holds_of_isAscii hone), length_of_isAscii hone, List.length_singleton]

end Width

end UnitText
