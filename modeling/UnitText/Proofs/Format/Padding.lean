import UnitText.Proofs.Format.Fill

/-!
# Padding

The width of a field only adds to the output of a conversion. What is added are spaces on the left
or on the right, or zeros between the sign and mark of a number and its digits; and so much is added
that the output takes just as many units as the field is wide.

## Main definitions

- `Field.Fills` — what a width makes of a piece of output
- `Field.ZeroFills` — whether a conversion fills its field with zeros

## Main statements

- `Field.render_fill` — what a width makes of the output of a conversion
- `Field.padding_lawful` — the ways to fill a field, side by side
-/

namespace UnitText

/-- Characters take the units that they are encoded in. -/
theorem Piece.unitCount_chars {w : Width} {cs : Chars} (h : ∀ c ∈ cs, w.Holds c) :
    (chars cs).toValue.unitCount w = .ok (w.length cs) := by
  by_cases hw : w = .wide32
  · subst hw
    have hsize : (Value.ofChars cs).size = .ok (cs.map CodePoint.val).length := rfl
    rw [List.length_map] at hsize
    rw [Width.length_wide32]
    exact hsize
  · rw [toValue, Value.unitCount]
    · simp only [Value.asChars, Value.chars?_ofChars]
      exact Width.unitCount_eq_ok h
    · exact hw

namespace Field

/-- What a width makes of a piece of output: characters are filled, and any other value has to be as
wide as the field by itself. -/
inductive Fills (f : Field) (zeros : Prop) : Piece → Except Failure Piece → Prop where
  | chars {b : Bool} {cs : Chars} (h : b = true ↔ zeros) :
    Fills f zeros (.chars cs) (.ok (.chars (f.fill b cs)))
  | value {v : Value} {n : Nat} {x : Except Failure Piece} (hn : v.unitCount f.charWidth = .ok n)
    (h : ∀ p, x = .ok p → p = .value v ∧ f.width ≤ n) : Fills f zeros (.value v) x

/-- A conversion fills its field with zeros, unless it does so on the right: the flag is set, and
the digits of a number are written. -/
def ZeroFills (f : Field) (a : Argument) : Prop :=
  f.flags.zero ∧ match f.spec.kind with
    | .integer form => f.precision = none ∧
        ¬(a.family = .boolean ∧ form.isDecimal ∧ ∃ b, a.value = .boolean b false)
    | .float form _ => a.IsFinite form
    | _ => False

theorem not_zeroFills_of_kind {f : Field} {a : Argument}
    (h : f.spec.kind = .char ∨ f.spec.kind = .string ∨ f.spec.kind = .pointer ∨
      f.spec.kind = .percent) : ¬f.ZeroFills a := by
  rintro ⟨-, hzeros⟩
  rcases h with h | h | h | h <;> rw [h] at hzeros <;> exact hzeros

/-- Steps that do not depend on the width may come first. -/
theorem fills_bind {α : Type} {f : Field} {zeros : Prop} {x : Except Failure α}
    {g₀ g : α → Except Failure Piece} {p : Piece} (h : x >>= g₀ = .ok p)
    (hg : ∀ a, g₀ a = .ok p → f.Fills zeros p (g a)) : f.Fills zeros p (x >>= g) := by
  obtain ⟨a, rfl, h⟩ := bind_eq_ok.1 h
  exact hg a h

/-- Conversions that always write characters fill them. -/
theorem fills_chars {f : Field} {zeros : Prop} {x y : Except Failure Chars} {p : Piece}
    (hxy : ∀ cs, x = .ok cs → ∃ b, y = .ok (f.fill b cs) ∧ (b = true ↔ zeros))
    (h : (do return Piece.chars (← x)) = .ok p) : f.Fills zeros p (do return .chars (← y)) := by
  obtain ⟨cs, hcs, h⟩ := bind_eq_ok.1 h
  obtain rfl := pure_eq_ok.1 h
  obtain ⟨b, rfl, hb⟩ := hxy cs hcs
  exact .chars hb

section

variable {f : Field} {a : Argument} (hwidth : f.width ≤ 2 ^ 62)
include hwidth

theorem padText_fill {zeros : Prop} (hzeros : ¬zeros) {cs cs₀ : Chars}
    (h : f.bare.padText cs = .ok cs₀) :
    ∃ b, f.padText cs = .ok (f.fill b cs₀) ∧ (b = true ↔ zeros) := by
  rw [padText_bare] at h
  obtain rfl := Except.ok.inj h
  exact ⟨false, padText_eq hwidth _, by simp [hzeros]⟩

theorem padPiece_fill {zeros : Prop} (hzeros : ¬zeros) {p p₀ : Piece}
    (h : f.bare.padPiece p = .ok p₀) : f.Fills zeros p₀ (f.padPiece p) := by
  cases p with
  | chars cs => exact fills_chars (fun _ hcs => padText_fill hwidth hzeros hcs) h
  | value v =>
    obtain ⟨n, hn, h⟩ := bind_eq_ok.1 h
    have hn : v.unitCount f.charWidth = .ok n := hn
    simp only [bare, Nat.zero_sub, runLimit] at h
    obtain rfl : Piece.value v = p₀ := Except.ok.inj h
    refine .value hn fun p hp => ?_
    obtain ⟨n', hn', hp⟩ := bind_eq_ok.1 hp
    obtain rfl : n = n' := Except.ok.inj (hn.symm.trans hn')
    simp only at hp
    split at hp
    · cases hp
    · split at hp
      · cases hp
      · exact ⟨(pure_eq_ok.1 hp).symm, by omega⟩

/-- What a width makes of the output of a conversion without one. -/
theorem render_fill (hkind : f.spec.kind ≠ .count) {p₀ : Piece}
    (h : f.bare.render a = .ok p₀) : f.Fills (f.ZeroFills a) p₀ (f.render a) := by
  have hspec : f.bare.spec = f.spec := rfl
  unfold render at h ⊢
  rw [hspec] at h
  cases hk : f.spec.kind with
  | integer form =>
    rw [hk] at h
    refine fills_chars (fun cs hcs => ?_) h
    obtain ⟨b, hb, hzeros⟩ := integer_fill hwidth hk hcs
    exact ⟨b, hb, by rw [hzeros, ZeroFills, hk]⟩
  | float form upper =>
    rw [hk] at h
    refine fills_chars (fun cs hcs => ?_) h
    obtain ⟨b, hb, hzeros⟩ := float_fill hwidth hcs
    exact ⟨b, hb, by rw [hzeros, ZeroFills, hk]⟩
  | char =>
    rw [hk] at h
    refine fills_bind h fun _ h => fills_bind h fun p h => fills_bind h fun q h => ?_
    exact padPiece_fill hwidth (not_zeroFills_of_kind (by simp [hk])) h
  | string =>
    rw [hk] at h
    refine fills_bind h fun _ h => fills_bind h fun p h => fills_bind h fun q h =>
      fills_bind h fun t h => ?_
    exact padPiece_fill hwidth (not_zeroFills_of_kind (by simp [hk])) h
  | pointer =>
    rw [hk] at h
    refine fills_chars (fun cs hcs => ?_) h
    obtain ⟨_, hcheck, hcs⟩ := bind_eq_ok.1 hcs
    obtain ⟨n, hn, hcs⟩ := bind_eq_ok.1 hcs
    have hzeros : ¬f.ZeroFills a := not_zeroFills_of_kind (by simp [hk])
    obtain ⟨b, hb, hzeros⟩ := padText_fill hwidth hzeros hcs
    exact ⟨b, bind_eq_ok.2 ⟨_, hcheck, bind_eq_ok.2 ⟨n, hn, hb⟩⟩, hzeros⟩
  | count => exact absurd hk hkind
  | percent =>
    rw [hk] at h
    refine fills_chars (fun cs hcs => ?_) h
    exact padText_fill hwidth (not_zeroFills_of_kind (by simp [hk])) hcs

end

/-- The output of a field has as many units as the field is wide, unless it has more of them without
a width. It is the output without a width, with spaces behind it, with zeros behind its sign and
mark or with spaces before it. -/
theorem padding_lawful {f : Field} {a : Argument} {p₀ : Piece} (hkind : f.spec.kind ≠ .count)
    (hwidth : f.width ≤ 2 ^ 62)
    (h₀ : { f with width := 0 }.render a = .ok p₀) :
    ∃ n₀, p₀.toValue.unitCount f.charWidth = .ok n₀ ∧
      (∀ cs₀, p₀ = .chars cs₀ → ∃ cs, f.render a = .ok (.chars cs)) ∧
      ∀ p, f.render a = .ok p →
        p.toValue.unitCount f.charWidth = .ok (max f.width n₀) ∧
        (f.width ≤ n₀ → p = p₀) ∧
        (n₀ < f.width → ∃ cs₀, p₀ = .chars cs₀ ∧
          let k := f.width - n₀
          (f.flags.left → p = .chars (cs₀ ++ List.replicate k (.ofChar ' '))) ∧
          (¬f.flags.left → f.ZeroFills a → p = .chars (cs₀.take cs₀.startLength ++
            List.replicate k (.ofChar '0') ++ cs₀.drop cs₀.startLength)) ∧
          (¬f.flags.left → ¬f.ZeroFills a →
            p = .chars (List.replicate k (.ofChar ' ') ++ cs₀))) := by
  have hholds : ∀ cs, p₀ = .chars cs → ∀ c ∈ cs, f.charWidth.Holds c := by
    rintro cs rfl
    exact holds_of_render (f := { f with width := 0 }) h₀
  have hfilled : ∀ cs, f.render a = .ok (.chars cs) → ∀ c ∈ cs, f.charWidth.Holds c :=
    fun _ => holds_of_render
  have hfills : f.Fills (f.ZeroFills a) p₀ (f.render a) := render_fill hwidth hkind h₀
  generalize f.render a = x at hfills hfilled ⊢
  cases hfills with
  | @chars b cs₀ hb =>
    refine ⟨_, Piece.unitCount_chars (hholds _ rfl), fun _ _ => ⟨_, rfl⟩, fun p hp => ?_⟩
    obtain rfl := Except.ok.inj hp
    rw [Piece.unitCount_chars (hfilled _ rfl), length_fill]
    refine ⟨rfl, fun hle => by rw [fill_eq_self hle], fun _ => ⟨cs₀, rfl, ?_, ?_, ?_⟩⟩
    · intro hleft
      simp only [fill, hleft, missing, ↓reduceIte]
    · intro hleft hzeros
      simp only [fill, hleft, missing, hb.2 hzeros, Bool.false_eq_true, ↓reduceIte]
    · intro hleft hzeros
      have hb : ¬b = true := fun h => hzeros (hb.1 h)
      simp only [fill, hleft, missing, hb, Bool.false_eq_true, ↓reduceIte]
  | @value v n _ hn h =>
    have hchars : ∀ cs, Piece.value v = .chars cs → ∃ ds, x = .ok (.chars ds) := by
      intro cs hcs
      cases hcs
    refine ⟨n, hn, hchars, fun p hp => ?_⟩
    obtain ⟨rfl, hle⟩ := h p hp
    refine ⟨?_, fun _ => rfl, fun hlt => absurd hle (Nat.not_le.2 hlt)⟩
    rw [Nat.max_eq_right hle]
    exact hn

/-- Zeros stand behind the mark of a hexadecimal number. -/
theorem padding_lawful_hexadecimal :
    let f : Field := {
      spec := { kind := .integer (.hex false) }
      flags := { alternate := true, zero := true }
      width := 6
      precision := none }
    let a : Argument := { family := .integer, value := .integer 42 }
    { f with width := 0 }.render a = .ok (.chars (Chars.ofString "0x2a")) ∧
      f.render a = .ok (.chars (Chars.ofString "0x002a")) := by
  intro f a
  have h₀ : { f with width := 0 }.render a = .ok (.chars (Chars.ofString "0x2a")) := by
    decide +kernel
  obtain ⟨n₀, hn₀, hreturns, h⟩ := padding_lawful (f := f) (a := a) nofun (by decide) h₀
  obtain rfl : 4 = n₀ := Except.ok.inj hn₀
  obtain ⟨cs, hcs⟩ := hreturns _ rfl
  obtain ⟨-, -, hfill⟩ := h _ hcs
  obtain ⟨cs₀, hcs₀, -, hzeros, -⟩ := hfill (by decide)
  obtain rfl := Piece.chars.inj hcs₀
  have hzeroFills : f.ZeroFills a := ⟨rfl, rfl, by simp [a]⟩
  refine ⟨h₀, hcs.trans ?_⟩
  rw [hzeros nofun hzeroFills]
  decide +kernel

end Field

end UnitText
