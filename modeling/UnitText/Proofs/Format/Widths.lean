import UnitText.Proofs.Format.Fits
import UnitText.Proofs.Format.Place
import UnitText.Proofs.Value.Refresh

/-!
# Conversions in templates of two widths

A conversion writes the same in templates of two widths, if what it writes is ASCII text. Numbers
and addresses are. Where it refuses its argument in one template it does so in the other, though
the two messages may quote the argument with different counts that were stored in it.

## Main definitions

- `Failure.IsLike` — failures of one kind, at one place
- `Agree` — two computations have related results, or fail alike
- `Specifier.WritesAscii` — what a conversion writes of an argument that it accepts is ASCII text

## Main statements

- `Field.render_agrees` — conversions in a template of another width
-/

namespace UnitText

/-- Failures of one kind: one and the same, or problems of one category at one place. -/
inductive Failure.IsLike : Failure → Failure → Prop where
  | refl (e : Failure) : IsLike e e
  | problem {p q : Problem} (hcategory : p.category = q.category) (hoffset : p.offset = q.offset) :
    IsLike (.problem p) (.problem q)

/-- Two computations have related results, or fail alike. -/
inductive Agree {α β : Type} (R : α → β → Prop) : Except Failure α → Except Failure β → Prop where
  | ok {a : α} {b : β} (h : R a b) : Agree R (.ok a) (.ok b)
  | error {e e' : Failure} (h : e.IsLike e') : Agree R (.error e) (.error e')

namespace Agree

variable {α α' β β' : Type} {R : α → β → Prop} {Q : α' → β' → Prop}

theorem bind {x : Except Failure α} {y : Except Failure β} {g : α → Except Failure α'}
    {h : β → Except Failure β'} (hxy : Agree R x y)
    (hgh : ∀ a b, x = .ok a → R a b → Agree Q (g a) (h b)) : Agree Q (x >>= g) (y >>= h) := by
  cases hxy with
  | ok hab => exact hgh _ _ rfl hab
  | error he => exact .error he

theorem bind_same {x : Except Failure α} {g : α → Except Failure α'} {h : α → Except Failure β'}
    (hgh : ∀ a, x = .ok a → Agree Q (g a) (h a)) : Agree Q (x >>= g) (x >>= h) := by
  cases x with
  | ok a => exact hgh a rfl
  | error e => exact .error (.refl e)

theorem of_ok {x : Except Failure α} {y : Except Failure β} {a : α} (h : Agree R x y)
    (hx : x = .ok a) : ∃ b, y = .ok b ∧ R a b := by
  subst hx
  cases h with
  | ok hab => exact ⟨_, rfl, hab⟩

/-- The same ASCII text. -/
theorem of_sameAscii {x y : Except Failure Chars} (h : SameAscii x y) :
    Agree (fun cs ds => ds = cs ∧ cs.IsAscii) x y := by
  obtain ⟨rfl, hascii⟩ := h
  cases y with
  | ok cs => exact .ok ⟨rfl, hascii cs rfl⟩
  | error e => exact .error (.refl e)

end Agree

/-- A piece of output that is ASCII text. -/
def Piece.IsAscii : Piece → Prop
  | chars cs => cs.IsAscii
  | value _ => False

instance : DecidablePred Piece.IsAscii
  | .chars cs => inferInstanceAs (Decidable cs.IsAscii)
  | .value _ => inferInstanceAs (Decidable False)

namespace Specifier

/-- The piece that a text or a character conversion is about to write of an argument that it
accepts, before it is cut off and filled. -/
def piece? (s : Specifier) (a : Argument) : Option Piece :=
  match s.kind, a.suits s.kind with
  | .string, .ok true => (Field.stringPiece a).toOption
  | .char, .ok true => (Field.charPiece s a).toOption
  | _, _ => none

/-- What a text or a character conversion writes of an argument that it accepts is ASCII text,
before it is cut off and filled. -/
def WritesAscii (s : Specifier) (a : Argument) : Prop := ∀ p ∈ s.piece? a, p.IsAscii

instance (s : Specifier) (a : Argument) : Decidable (s.WritesAscii a) :=
  inferInstanceAs (Decidable (∀ p ∈ s.piece? a, p.IsAscii))

variable {s : Specifier} {a : Argument} {p : Piece}

theorem WritesAscii.text (h : s.WritesAscii a) (hkind : s.kind = .string)
    (hsuits : a.suits .string = .ok true) (hp : Field.stringPiece a = .ok p) : p.IsAscii := by
  refine h p ?_
  rw [piece?, hkind, hsuits, hp]
  rfl

theorem WritesAscii.character (h : s.WritesAscii a) (hkind : s.kind = .char)
    (hsuits : a.suits .char = .ok true) (hp : Field.charPiece s a = .ok p) : p.IsAscii := by
  refine h p ?_
  rw [piece?, hkind, hsuits, hp]
  rfl

end Specifier

/-! ## Arguments that are refused -/

namespace Argument

variable {a b : Argument}

/-- Arguments of one kind are refused alike, though they may be quoted in different ways. -/
theorem Resembles.refusal_agrees {α β : Type} {R : α → β → Prop} (h : a.Resembles b)
    {p p' : String → Problem} (hcategory : ∀ q q', (p q).category = (p' q').category)
    (hoffset : ∀ q q', (p q).offset = (p' q').offset) :
    Agree R (do throw (.problem (p (← a.quoted)))) (do throw (.problem (p' (← b.quoted)))) := by
  cases ha : a.quoted with
  | error e =>
    rw [(h.quoted e).2 ha]
    exact .error (.refl e)
  | ok q =>
    cases hb : b.quoted with
    | error e => cases ((h.quoted e).1 hb).symm.trans ha
    | ok q' => exact .error (.problem (hcategory q q') (hoffset q q'))

theorem Resembles.check_agrees (h : a.Resembles b) (s : Specifier) :
    Agree (fun _ _ => True) (a.check s) (b.check s) := by
  rw [check, check, h.suits_eq]
  refine .bind_same fun accepted _ => ?_
  cases accepted with
  | true => exact .ok trivial
  | false => exact h.refusal_agrees (fun _ _ => rfl) fun _ _ => rfl

/-- A star reads one number of two arguments that are the same if they are integers. -/
theorem Resembles.starValue_agrees (h : a.Resembles b) (hsame : a.family = .integer → b = a)
    (s : Specifier) (role : StarRole) :
    Agree Eq (a.starValue s role) (b.starValue s role) := by
  by_cases hfamily : a.family = .integer
  · obtain rfl := hsame hfamily
    cases b.starValue s role with
    | ok n => exact .ok rfl
    | error e => exact .error (.refl e)
  · simp only [starValue, h.family, if_neg hfamily]
    exact h.refusal_agrees (fun _ _ => rfl) fun _ _ => rfl

end Argument

/-! ## Conversions -/

namespace Field

variable (f : Field) (w : Width) (written : Nat) (a : Argument)

/-- The results of a conversion in templates of two widths: the same ASCII text. -/
abbrev Agrees (x y : Except Failure Piece) : Prop := Agree (fun p q => q = p ∧ p.IsAscii) x y

theorem agrees_chars {x y : Except Failure Chars}
    (h : Agree (fun cs ds => ds = cs ∧ cs.IsAscii) x y) :
    Agrees (do return .chars (← x)) (do return .chars (← y)) := by
  refine h.bind fun cs ds _ hsame => ?_
  obtain ⟨rfl, hascii⟩ := hsame
  exact .ok ⟨rfl, hascii⟩

theorem integer_agrees {form : IntegerForm} (hkind : f.spec.kind = .integer form) :
    Agree (fun cs ds => ds = cs ∧ cs.IsAscii) (f.integer form a)
      ((f.atWidth w written).integer form a) := by
  refine .bind_same fun _ _ => ?_
  split
  · exact .of_sameAscii (f.same_truth w written (by rw [hkind]; rfl) form a.value)
  · exact .bind_same fun n _ => .of_sameAscii (f.same_storedInteger w written _)

theorem float_agrees (form : FloatForm) :
    Agree (fun cs ds => ds = cs ∧ cs.IsAscii) (f.float form a)
      ((f.atWidth w written).float form a) := by
  refine .bind_same fun _ _ => ?_
  split
  · exact .of_sameAscii (f.same_fixedPoint w written form a.value)
  · exact .bind_same fun x _ => .of_sameAscii (f.same_double w written form x)

theorem pointer_agrees :
    Agree (fun cs ds => ds = cs ∧ cs.IsAscii) (f.pointer a) ((f.atWidth w written).pointer a) :=
  .bind_same fun _ _ => .bind_same fun _ _ =>
    .of_sameAscii (f.same_padText w written (isAscii_addressText _))

theorem padPiece_agrees {cs : Chars} (hcs : cs.IsAscii) :
    Agrees (f.padPiece (.chars cs)) ((f.atWidth w written).padPiece (.chars cs)) :=
  agrees_chars (.of_sameAscii (f.same_padText w written hcs))

theorem writable_of_isAscii {cs : Chars} (hcs : cs.IsAscii) :
    f.writable (.chars cs) = .ok (.chars cs) :=
  writable_chars_iff.2 (Width.holds_of_isAscii hcs)

theorem truncated_of_isAscii {cs : Chars} (hcs : cs.IsAscii) :
    f.truncated (.chars cs) = .ok (.chars (cs.take (f.precision.getD cs.length))) := by
  unfold truncated
  split
  · next hprecision => rw [hprecision, Option.getD_none, List.take_length]
  · next n _ hprecision heq =>
    cases heq
    rw [hprecision, Option.getD_some, Width.truncate_of_isAscii hcs]
    rfl
  · next heq => cases heq

theorem char_agrees (h : f.spec.WritesAscii a) (hkind : f.spec.kind = .char) :
    Agrees (f.char a) ((f.atWidth w written).char a) := by
  refine .bind_same fun _ hcheck => ?_
  have hsuits := Argument.check_eq_ok.1 hcheck
  rw [hkind] at hsuits
  refine .bind_same fun p hp => ?_
  have hp := h.character hkind hsuits hp
  cases p with
  | value v => cases hp
  | chars cs =>
    rw [writable_of_isAscii f hp, writable_of_isAscii (f.atWidth w written) hp]
    exact f.padPiece_agrees w written hp

theorem string_agrees (h : f.spec.WritesAscii a) (hkind : f.spec.kind = .string) :
    Agrees (f.string a) ((f.atWidth w written).string a) := by
  refine .bind_same fun _ hcheck => ?_
  have hsuits := Argument.check_eq_ok.1 hcheck
  rw [hkind] at hsuits
  refine .bind_same fun p hp => ?_
  have hp := h.text hkind hsuits hp
  cases p with
  | value v => cases hp
  | chars cs =>
    rw [writable_of_isAscii f hp, writable_of_isAscii (f.atWidth w written) hp]
    show Agrees (f.truncated (.chars cs) >>= _) ((f.atWidth w written).truncated (.chars cs) >>= _)
    rw [truncated_of_isAscii f hp, truncated_of_isAscii (f.atWidth w written) hp]
    exact f.padPiece_agrees w written (hp.take _)

variable {a} {b : Argument}

/-- Counts are stored in both arguments or in none. -/
theorem count_agrees (h : a.Resembles b)
    (hroom : a.suits f.spec.kind = .ok true →
      (a.value.HasRoomFor f.written ↔ a.value.HasRoomFor written)) :
    Agrees (f.count a) ((f.atWidth w written).count b) := by
  refine (h.check_agrees f.spec).bind fun _ _ hcheck _ => ?_
  have hroom := hroom (Argument.check_eq_ok.1 hcheck)
  show Agrees (a.value.store f.written >>= fun _ => pure (.chars []))
    (b.value.store written >>= fun _ => pure (.chars []))
  cases ha : a.value.store f.written with
  | ok u =>
    obtain ⟨u', hb⟩ := (h.room written).2 (hroom.1 ⟨u, ha⟩)
    rw [hb]
    exact .ok ⟨rfl, Chars.isAscii_nil⟩
  | error e =>
    cases hb : b.value.store written with
    | ok u' =>
      obtain ⟨u, hu⟩ := hroom.2 ((h.room written).1 ⟨u', hb⟩)
      cases hu.symm.trans ha
    | error e' =>
      rw [h.refused ha hb]
      exact .error (.refl e)

/-- **Conversions in a template of another width**, of two arguments of one kind. An argument that
suits the conversion is the same, or, if a count is stored in it, has room for both counts or for
neither. -/
theorem render_agrees (h : a.Resembles b) (hkind : f.spec.kind ≠ .percent)
    (hascii : f.spec.WritesAscii a)
    (hsame : f.spec.kind ≠ .count → a.suits f.spec.kind = .ok true → b = a)
    (hroom : f.spec.kind = .count → a.suits f.spec.kind = .ok true →
      (a.value.HasRoomFor f.written ↔ a.value.HasRoomFor written)) :
    Agrees (f.render a) ((f.atWidth w written).render b) := by
  by_cases hcount : f.spec.kind = .count
  · have hcount' : (f.atWidth w written).spec.kind = .count := hcount
    rw [render, render, hcount, hcount']
    exact f.count_agrees w written h (hroom hcount)
  by_cases hsuits : a.suits f.spec.kind = .ok true
  · obtain rfl := hsame hcount hsuits
    have hspec : (f.atWidth w written).spec = f.spec := rfl
    unfold render
    rw [hspec]
    split
    · next hkind => exact agrees_chars (f.integer_agrees w written b hkind)
    · exact agrees_chars (f.float_agrees w written b _)
    · next hkind => exact f.char_agrees w written b hascii hkind
    · next hkind => exact f.string_agrees w written b hascii hkind
    · exact agrees_chars (f.pointer_agrees w written b)
    · next hkind => exact absurd hkind hcount
    · exact agrees_chars (.of_sameAscii (f.same_percent w written))
  · have hcheck := h.check_agrees f.spec
    generalize ha : a.check f.spec = x at hcheck
    generalize hb : b.check f.spec = y at hcheck
    cases hcheck with
    | ok => exact absurd (Argument.check_eq_ok.1 ha) hsuits
    | error he =>
      have hfails : f.render a = .error _ := render_eq_error_of_check hkind ha
      have hfails' : (f.atWidth w written).render b = .error _ := render_eq_error_of_check hkind hb
      rw [hfails, hfails']
      exact .error he

end Field

end UnitText
