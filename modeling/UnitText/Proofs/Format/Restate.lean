import UnitText.Proofs.Format.Fill

/-!
# Fields that are stated in another way

A width below zero is its magnitude and the flag that fills the field on the right; a width of zero
is none, and then zeros cannot fill anything; a precision below zero is none. Stated in another of
these ways, a conversion has the same output.

## Main definitions

- `RestatesWidth`, `RestatesPrecision` — other ways to give a width and a precision

## Main statements

- `Field.render_zero` — without a width the flag for zeros makes no difference
- `Field.render_create`, `Field.percent_create` — the output of a field stated in another way
-/

namespace UnitText

/-- Other flags and another width that say the same as these. -/
inductive RestatesWidth : Flags → Option Int → Flags → Option Int → Prop where
  | same (flags : Flags) (width : Option Int) : RestatesWidth flags width flags width
  | left (flags : Flags) {n : Int} (hn : n < 0) :
    RestatesWidth flags (some n) { flags with left := true } (some (-n))
  | zero (flags : Flags) : RestatesWidth flags (some 0) { flags with zero := true } none

/-- Another precision that says the same. -/
inductive RestatesPrecision : Option Int → Option Int → Prop where
  | same (precision : Option Int) : RestatesPrecision precision precision
  | removed {n : Int} (hn : n < 0) : RestatesPrecision (some n) none

namespace Field

variable {f : Field} {a : Argument} {p : Piece}

/-! ## The flag for zeros -/

/-- The field with or without the flag for zeros. -/
def withZero (f : Field) (zero : Bool) : Field := { f with flags := { f.flags with zero } }

theorem integer_bare_zero (f : Field) (zero : Bool) (form : IntegerForm) (a : Argument) :
    (f.withZero zero).bare.integer form a = f.bare.integer form a := by
  have hdigits : (f.withZero zero).bare.signedDigits = f.bare.signedDigits := by
    funext negative isZero digits
    simp only [signedDigits, padNumber_bare]
    rfl
  simp only [integer, truth, storedInteger, hdigits]
  rfl

theorem float_bare_zero (f : Field) (zero : Bool) (form : FloatForm) (a : Argument) :
    (f.withZero zero).bare.float form a = f.bare.float form a := by
  have hfinite : (f.withZero zero).bare.padFinite = f.bare.padFinite := by
    funext negative mark digits
    simp only [padFinite, padNumber_bare]
    rfl
  simp only [float, fixedPoint, decimal, double, finiteDecimal, finiteDouble, hexDouble, hfinite]
  rfl

/-- Without a width, there is nothing that zeros could fill. -/
theorem render_zero (f : Field) (hwidth : f.width = 0) (zero : Bool) (a : Argument) :
    (f.withZero zero).render a = f.render a := by
  have hbare : f = f.bare := by rw [bare, ← hwidth]
  have hbare' : f.withZero zero = (f.withZero zero).bare := by rw [bare, ← hwidth]; rfl
  rw [hbare', hbare]
  simp only [render, integer_bare_zero, float_bare_zero]
  rfl

/-! ## Widths and precisions -/

section

variable {s t : Specifier} {width width' precision precision' : Option Int} {w : Width}
  {written : Nat}

theorem bind_restatesPrecision (h : RestatesPrecision precision precision') :
    (precision'.bind fun n => if n < 0 then none else some n.toNat) =
      precision.bind fun n => if n < 0 then none else some n.toNat := by
  cases h with
  | same => rfl
  | removed hn => simp [hn]

/-- A field that is created from another statement is the field as that states it, up to a flag for
zeros where nothing is filled. -/
theorem create_eq_restate (w : Width) (written : Nat) (hkind : t.kind = s.kind)
    (hlength : t.length = s.length) (hwidth : RestatesWidth s.flags width t.flags width')
    (hprecision : RestatesPrecision precision precision') :
    let f := create s width precision w written
    create t width' precision' w written = f.restate t written ∨
      f.width = 0 ∧ create t width' precision' w written = (f.restate t written).withZero true := by
  obtain ⟨kind, flags, _, _, length, _⟩ := s
  obtain ⟨kind', flags', _, _, length', _⟩ := t
  obtain rfl : kind' = kind := hkind
  obtain rfl : length' = length := hlength
  simp only [create, restate, bind_restatesPrecision hprecision]
  cases hwidth with
  | same => exact .inl rfl
  | @left n hn =>
    have hpos : ¬-n < 0 := by omega
    left
    simp only [hn, hpos, ↓reduceIte, Option.map_some, Option.getD_some, Int.natAbs_neg]
  | zero => exact .inr ⟨rfl, rfl⟩

/-- A conversion whose width and precision are given in another way has the same output. -/
theorem render_create (hkind : t.kind = s.kind) (hlength : t.length = s.length)
    (hwidth : RestatesWidth s.flags width t.flags width')
    (hprecision : RestatesPrecision precision precision')
    (h : (create s width precision w written).render a = .ok p) :
    (create t width' precision' w written).render a = .ok p := by
  have hroom : s.kind = .count → a.value.HasRoomFor written := by
    intro hcount
    have hspec : (create s width precision w written).spec.kind = .count := hcount
    rw [render, hspec] at h
    obtain ⟨_, _, h⟩ := bind_eq_ok.1 h
    obtain ⟨u, hstore, _⟩ := bind_eq_ok.1 h
    exact ⟨u, hstore⟩
  have hrestate := render_restate (t := t) h hroom
  obtain heq | ⟨hzero, heq⟩ := create_eq_restate w written hkind hlength hwidth hprecision
  · rw [heq]
    exact hrestate
  · have hwithZero := render_zero ((create s width precision w written).restate t written) hzero
    rw [heq, hwithZero]
    exact hrestate

/-- The same for a percent sign, of which only the place in the field can be stated. -/
theorem percent_create (hkind : t.kind = s.kind) (hlength : t.length = s.length)
    (hwidth : RestatesWidth s.flags width t.flags width')
    (hprecision : RestatesPrecision precision precision') :
    (create t width' precision' w written).percent =
      (create s width precision w written).percent := by
  obtain heq | ⟨-, heq⟩ := create_eq_restate w written hkind hlength hwidth hprecision
  · rw [heq]
    rfl
  · rw [heq]
    rfl

end

end Field

end UnitText
