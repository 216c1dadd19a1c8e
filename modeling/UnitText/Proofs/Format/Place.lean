import UnitText.Format.Text
import UnitText.Proofs.Result

/-!
# Output does not depend on the place

Where a specifier stands and how it is written is told in messages only, and how many units were
output before it is only stored. So a conversion that has output has the same output elsewhere. The
exception is a count that is stored in a value that has no room for it, as a character of one byte
has none for counts from 256 on.

## Main definitions

- `Field.restate` — a field for the same conversion, stated by another specifier
- `Field.move` — a field for the same specifier, elsewhere
- `Value.HasRoomFor` — whether a count can be stored in a value

## Main statements

- `Argument.check_eq_ok`, `Argument.starValue_eq_ok` — what is accepted, without the messages
- `Field.render_restate` — the output of a conversion that is stated in another way
- `Field.render_move` — the output of a conversion elsewhere
-/

namespace UnitText

namespace Argument

theorem check_eq_ok {a : Argument} {s : Specifier} :
    a.check s = .ok () ↔ a.suits s.kind = .ok true := by
  rw [check, bind_eq_ok]
  constructor
  · rintro ⟨b, hb, h⟩
    cases b with
    | true => exact hb
    | false =>
      obtain ⟨q, hq, h⟩ := bind_eq_ok.1 h
      cases h
  · exact fun h => ⟨true, h, rfl⟩

theorem starValue_eq_ok {a : Argument} {s : Specifier} {role : StarRole} {n : Int} :
    a.starValue s role = .ok n ↔
      a.family = .integer ∧ ∃ m, a.value.toInteger = .ok m ∧ Integer.wrap 32 true m = n := by
  rw [starValue]
  by_cases hfamily : a.family = .integer
  · simp only [hfamily, ↓reduceIte, bind_eq_ok, pure_eq_ok, true_and]
  · simp only [hfamily, ↓reduceIte, bind_eq_ok, throw_ne_ok, and_false, exists_false, false_and]

/-- A count conversion takes slots only. -/
theorem family_of_check {a : Argument} {s : Specifier} (hkind : s.kind = .count)
    (h : a.check s = .ok ()) : a.family = .slot := by
  rw [check_eq_ok, hkind] at h
  obtain ⟨family, v, bits, signed, domain⟩ := a
  cases family with
  | slot => rfl
  | _ => cases h

end Argument

/-- Whether a count can be stored in a value. -/
def Value.HasRoomFor (count : Nat) (v : Value) : Prop := ∃ u, v.store count = .ok u

instance (count : Nat) (v : Value) : Decidable (v.HasRoomFor count) :=
  match h : v.store count with
  | .ok u => .isTrue ⟨u, h⟩
  | .error _ => .isFalse fun ⟨_, hu⟩ => nomatch h.symm.trans hu

namespace Field

variable {f : Field} {t : Specifier} {written : Nat}

/-- The field for the same conversion, as another specifier states it, behind another number of
units. -/
def restate (f : Field) (t : Specifier) (written : Nat) : Field :=
  { f with spec := { t with kind := f.spec.kind, length := f.spec.length }, written }

/-- The field for a specifier at another offset, behind another number of units. -/
def move (f : Field) (offset : Option Int) (written : Nat) : Field :=
  { f with spec := { f.spec with offset }, written }

theorem check_restate {a : Argument} (h : a.check f.spec = .ok ()) :
    a.check (f.restate t written).spec = .ok () := by
  have hsuits := Argument.check_eq_ok.1 h
  exact Argument.check_eq_ok.2 hsuits

theorem integer_restate {form : IntegerForm} {a : Argument} {cs : Chars}
    (h : f.integer form a = .ok cs) : (f.restate t written).integer form a = .ok cs := by
  obtain ⟨_, hcheck, h⟩ := bind_eq_ok.1 h
  exact bind_eq_ok.2 ⟨(), check_restate hcheck, h⟩

/-- A number that can be read is read without a message. -/
theorem nearest_eq_ok {s : Specifier} {v : Value} {x : Double} :
    nearest s v = .ok x ↔ v.toFloat = .ok x := by
  unfold nearest
  split
  · next hrange =>
    rw [hrange]
    simp [bind_eq_ok, throw_ne_ok]
  · rfl

theorem float_restate {form : FloatForm} {a : Argument} {cs : Chars} (h : f.float form a = .ok cs) :
    (f.restate t written).float form a = .ok cs := by
  obtain ⟨_, hcheck, h⟩ := bind_eq_ok.1 h
  refine bind_eq_ok.2 ⟨(), check_restate hcheck, ?_⟩
  split at h
  · next hdomain =>
    simp only [hdomain, ↓reduceIte]
    exact h
  · next hdomain =>
    simp only [hdomain, ↓reduceIte]
    obtain ⟨x, hx, h⟩ := bind_eq_ok.1 h
    exact bind_eq_ok.2 ⟨x, nearest_eq_ok.2 (nearest_eq_ok.1 hx), h⟩

theorem pointer_restate {a : Argument} {cs : Chars} (h : f.pointer a = .ok cs) :
    (f.restate t written).pointer a = .ok cs := by
  obtain ⟨_, hcheck, h⟩ := bind_eq_ok.1 h
  exact bind_eq_ok.2 ⟨(), check_restate hcheck, h⟩

theorem writable_restate {p q : Piece} (h : f.writable p = .ok q) :
    (f.restate t written).writable p = .ok q := by
  cases p with
  | value v => exact h
  | chars cs =>
    obtain ⟨ds, hds, h⟩ := bind_eq_ok.1 h
    refine bind_eq_ok.2 ⟨ds, ?_, h⟩
    simp only [writableText] at hds ⊢
    split at hds
    · next hfault =>
      have hrestate : (f.restate t written).charWidth.fault? cs = none := hfault
      rw [hrestate]
      exact hds
    · cases hds

theorem numberedChar_restate {n : Int} {cs : Chars} (h : numberedChar f.spec n = .ok cs) :
    numberedChar (f.restate t written).spec n = .ok cs := by
  have hlength : (f.restate t written).spec.length = f.spec.length := rfl
  simp only [numberedChar, hlength] at h ⊢
  split at h
  · split at h
    · cases h
    · next hc hsurrogate => simpa only [hc, if_neg hsurrogate] using h
  · cases h

theorem char_restate {a : Argument} {p : Piece} (h : f.char a = .ok p) :
    (f.restate t written).char a = .ok p := by
  obtain ⟨_, hcheck, h⟩ := bind_eq_ok.1 h
  obtain ⟨q, hq, h⟩ := bind_eq_ok.1 h
  obtain ⟨t, hwritable, h⟩ := bind_eq_ok.1 h
  refine bind_eq_ok.2 ⟨(), check_restate hcheck, bind_eq_ok.2 ⟨q, ?_, ?_⟩⟩
  · rw [charPiece] at hq ⊢
    split at hq
    · next hfamily =>
      rw [if_pos hfamily]
      obtain ⟨n, hn, hq⟩ := bind_eq_ok.1 hq
      obtain ⟨cs, hcs, hq⟩ := bind_eq_ok.1 hq
      exact bind_eq_ok.2 ⟨n, hn, bind_eq_ok.2 ⟨cs, numberedChar_restate hcs, hq⟩⟩
    · next hfamily =>
      rw [if_neg hfamily]
      exact hq
  · exact bind_eq_ok.2 ⟨t, writable_restate hwritable, h⟩

theorem string_restate {a : Argument} {p : Piece} (h : f.string a = .ok p) :
    (f.restate t written).string a = .ok p := by
  obtain ⟨_, hcheck, h⟩ := bind_eq_ok.1 h
  obtain ⟨q, hq, h⟩ := bind_eq_ok.1 h
  obtain ⟨t, hwritable, h⟩ := bind_eq_ok.1 h
  refine bind_eq_ok.2 ⟨(), check_restate hcheck, bind_eq_ok.2 ⟨q, hq, ?_⟩⟩
  exact bind_eq_ok.2 ⟨t, writable_restate hwritable, h⟩

theorem of_count_eq_ok {a : Argument} {p : Piece} (h : f.count a = .ok p)
    (hkind : f.spec.kind = .count) :
    a.family = .slot ∧ (∃ u, a.value.store f.written = .ok u) ∧ p = .chars [] := by
  obtain ⟨_, hcheck, h⟩ := bind_eq_ok.1 h
  obtain ⟨u, hstore, h⟩ := bind_eq_ok.1 h
  exact ⟨Argument.family_of_check hkind hcheck, ⟨u, hstore⟩, (pure_eq_ok.1 h).symm⟩

theorem count_restate {a : Argument} {p : Piece} (h : f.count a = .ok p)
    (hroom : a.value.HasRoomFor written) : (f.restate t written).count a = .ok p := by
  obtain ⟨_, hcheck, h⟩ := bind_eq_ok.1 h
  obtain ⟨_, -, h⟩ := bind_eq_ok.1 h
  obtain ⟨u, hstore⟩ := hroom
  exact bind_eq_ok.2 ⟨(), check_restate hcheck, bind_eq_ok.2 ⟨u, hstore, h⟩⟩

/-- Every conversion of a value first refuses what does not suit it. -/
theorem render_eq_error_of_check {a : Argument} {e : Failure} (hkind : f.spec.kind ≠ .percent)
    (h : a.check f.spec = .error e) : f.render a = .error e := by
  unfold render
  split
  · simp only [integer, h, Bind.bind, Except.bind]
  · simp only [float, h, Bind.bind, Except.bind]
  · simp only [char, h, Bind.bind, Except.bind]
  · simp only [string, h, Bind.bind, Except.bind]
  · simp only [pointer, h, Bind.bind, Except.bind]
  · simp only [count, h, Bind.bind, Except.bind]
  · next hform => exact absurd hform hkind

/-- A conversion has the same output however it is stated, where the value has room for the count
if the conversion stores it. -/
theorem render_restate {a : Argument} {p : Piece} (h : f.render a = .ok p)
    (hroom : f.spec.kind = .count → a.value.HasRoomFor written) :
    (f.restate t written).render a = .ok p := by
  have hchars : ∀ {x y : Except Failure Chars}, (∀ cs, x = .ok cs → y = .ok cs) →
      (do return Piece.chars (← x)) = .ok p → (do return Piece.chars (← y)) = .ok p := by
    intro x y hxy hreturn
    obtain ⟨cs, hcs, hreturn⟩ := bind_eq_ok.1 hreturn
    exact bind_eq_ok.2 ⟨cs, hxy cs hcs, hreturn⟩
  have hkind : (f.restate t written).spec.kind = f.spec.kind := rfl
  rw [render] at h ⊢
  rw [hkind]
  cases hk : f.spec.kind with
  | integer form =>
    rw [hk] at h
    exact hchars (fun _ => integer_restate) h
  | float form upper =>
    rw [hk] at h
    exact hchars (fun _ => float_restate) h
  | char =>
    rw [hk] at h
    exact char_restate h
  | string =>
    rw [hk] at h
    exact string_restate h
  | pointer =>
    rw [hk] at h
    exact hchars (fun _ => pointer_restate) h
  | count =>
    rw [hk] at h
    exact count_restate h (hroom hk)
  | percent =>
    rw [hk] at h
    exact h

/-- A conversion has the same output elsewhere, where the value has room for the count if the
conversion stores it. -/
theorem render_move {offset : Option Int} {a : Argument} {p : Piece} (h : f.render a = .ok p)
    (hroom : f.spec.kind = .count → a.value.HasRoomFor written) :
    (f.move offset written).render a = .ok p :=
  render_restate (t := { f.spec with offset }) h hroom

end Field

end UnitText
