import UnitText.Proofs.Run.Frame
import UnitText.Proofs.Value.Refresh

/-!
# What a run reads

A run reads a value for each star and for each conversion. A value shows the counts that were stored
before, in slots and variables that it is or has in it, so what is read depends on the place of a
template: elsewhere other counts have been stored, and a count conversion stores another one. All
this makes no difference to a value that shows the same in both places, nor to a value that is only
stored in, if it has room for both counts or for neither.

## Main definitions

- `Reading` — a value that a run reads, behind which text and which stores
- `Formatter.readings` — what is read when values are formatted
- `Reading.IsAlike` — a reading to which two places make no difference

## Main statements

- `Run.Shows.readings_specifier` — what a specifier reads that has output
- `Run.Shows.readings_eq` — what is read by runs that have come equally far
-/

namespace UnitText

/-- A value that a run reads for a specifier. -/
structure Reading where
  spec : Specifier
  /-- The star that the value is read for, if it is not for the conversion. -/
  role : Option StarRole
  value : Value
  /-- The output so far. -/
  text : Chars
  /-- What the run has stored so far. -/
  stores : Slots
deriving DecidableEq

namespace Reading

/-- An argument is accepted: a star takes integers, a conversion what suits it. -/
def Accepts (x : Reading) (a : Argument) : Prop :=
  match x.role with
  | some _ => a.family = .integer
  | none => a.suits x.spec.kind = .ok true

instance (x : Reading) (a : Argument) : Decidable (x.Accepts a) := by
  unfold Accepts
  split <;> infer_instance

/-- A count is stored in the value, which is not read otherwise. -/
def IsTarget (x : Reading) : Prop := x.role = none ∧ x.spec.kind = .count

instance (x : Reading) : Decidable x.IsTarget := inferInstanceAs (Decidable (_ ∧ _))

/-- It makes no difference to a reading which of two lists of counts was stored before, and behind
which of two numbers of units it is: a value that is accepted is the same, or, if a count is stored
in it, has room for both numbers or for neither. -/
def IsAlike (x : Reading) (slots slots' : Slots) (count count' : Nat) : Prop :=
  ∀ a ∈ (x.value.refresh slots).adapt.toOption, x.Accepts a →
    if x.IsTarget then a.value.HasRoomFor count ↔ a.value.HasRoomFor count'
    else x.value.refresh slots' = x.value.refresh slots

instance (x : Reading) (slots slots' : Slots) (count count' : Nat) :
    Decidable (x.IsAlike slots slots' count count') :=
  inferInstanceAs (Decidable (∀ a ∈ (x.value.refresh slots).adapt.toOption, x.Accepts a → _))

variable {x : Reading} {slots slots' : Slots} {count count' : Nat} {a : Argument}

/-- The argument is the same in both places, unless a count is stored in it. -/
theorem IsAlike.adapt_eq (h : x.IsAlike slots slots' count count') (hx : ¬x.IsTarget)
    (ha : (x.value.refresh slots).adapt = .ok a) (haccepts : x.Accepts a) :
    (x.value.refresh slots').adapt = .ok a := by
  have halike := h a (mem_toOption.2 ha) haccepts
  rw [if_neg hx] at halike
  rwa [halike]

theorem IsAlike.room (h : x.IsAlike slots slots' count count') (hx : x.IsTarget)
    (ha : (x.value.refresh slots).adapt = .ok a) (haccepts : x.Accepts a) :
    a.value.HasRoomFor count ↔ a.value.HasRoomFor count' := by
  have halike := h a (mem_toOption.2 ha) haccepts
  rwa [if_pos hx] at halike

end Reading

/-! ## The readings of a run -/

/-- The reading for a width or a precision, if it is a star. -/
def Count.roles (role : StarRole) (c : Option Count) : List (Option StarRole) :=
  if c = some .star then [some role] else []

/-- The reading for a conversion. The percent sign reads no value. -/
def Kind.roles (k : Kind) : List (Option StarRole) := if k = .percent then [] else [none]

/-- What a specifier reads values for, in order. -/
def Specifier.roles (s : Specifier) : List (Option StarRole) :=
  Count.roles .width s.width ++ (Count.roles .precision s.precision ++ s.kind.roles)

/-- The values that a specifier reads in a run: those for its stars, and then, unless one of them is
no number, that of its conversion. -/
def Run.uses (s : Specifier) (r : Run) : List (Option StarRole × Value) :=
  (Count.roles .width s.width).zip r.pending ++
    match Run.resolve s .width s.width r with
    | .error _ _ => []
    | .ok _ r₁ =>
      (Count.roles .precision s.precision).zip r₁.pending ++
        match Run.resolve s .precision s.precision r₁ with
        | .error _ _ => []
        | .ok _ r₂ => s.kind.roles.zip r₂.pending

/-- What a token reads in a run that has stored counts. -/
def Token.readings (stores : Slots) (r : Run) : Token → List Reading
  | .literal _ _ => []
  | .specifier s =>
    match s.kind.takes s.length, Piece.join r.output with
    | true, .ok text =>
      (Run.uses s r).map fun (role, v) => { spec := s, role, value := v, text, stores }
    | _, _ => []

/-- What tokens read in a run that has stored counts, up to the first token that fails. -/
def Run.readings (w : Width) : List Token → Slots → Run → List Reading
  | [], _, _ => []
  | t :: ts, stores, r =>
    t.readings stores r ++
      match step w t r with
      | .ok _ r' => readings w ts (t.stores r ++ stores) r'
      | .error _ _ => []

/-- What is read when values are formatted. -/
def Formatter.readings (f : Formatter) (slots : Slots) (values : List Value) : List Reading :=
  Run.readings f.width (Scan.ofChars f.template).tokens [] { pending := values, slots }

/-! ## Readings of specifiers that have output -/

theorem Count.Reads.length_roles {s : Specifier} {role : StarRole} {slots : Slots}
    {c : Option Count} {vs : List Value} {n : Option Int} (h : Count.Reads s role slots c vs n) :
    (Count.roles role c).length = vs.length := by
  cases h <;> rfl

/-- Nothing more is paired than there is on the left. -/
theorem zip_append_of_length_eq {α β : Type} {as : List α} {bs : List β}
    (h : as.length = bs.length) (cs : List β) : as.zip (bs ++ cs) = as.zip bs := by
  have hzip : (as ++ []).zip (bs ++ cs) = as.zip bs ++ [].zip cs := List.zip_append h
  simpa using hzip

namespace Run.Shows

variable {w : Width} {s : Specifier} {t : Token} {ts : List Token} {r r' : Run} {P Q : Progress}
  {vs rest : List Value} {p : Piece} {new stores : Slots}

/-- A specifier that has output reads what it consumes. -/
theorem uses_eq (hr : r.Shows w P) (hpending : P.pending = vs ++ rest)
    (h : s.Outputs w P.slots (w.length P.text) vs p new) : Run.uses s r = s.roles.zip vs := by
  cases h with
  | percent hkind _ hwidth hprecision _ =>
    rw [List.append_assoc] at hpending
    obtain ⟨r₁, hr₁, hshows₁⟩ := hr.exists_resolve hwidth hpending
    obtain ⟨r₂, hr₂, hshows₂⟩ := hshows₁.exists_resolve hprecision rfl
    simp only [Run.uses, Specifier.roles, hr₁, hr₂, hr.pending, hpending, hshows₁.pending,
      hshows₂.pending, Kind.roles, hkind, ↓reduceIte, List.append_nil, List.zip_nil_left]
    rw [zip_append_of_length_eq hwidth.length_roles,
      zip_append_of_length_eq hprecision.length_roles,
      List.zip_append hwidth.length_roles]
  | value hkind _ hwidth hprecision ha _ =>
    rw [List.append_assoc] at hpending
    obtain ⟨r₁, hr₁, hshows₁⟩ := hr.exists_resolve hwidth hpending
    obtain ⟨r₂, hr₂, hshows₂⟩ := hshows₁.exists_resolve hprecision (List.append_assoc _ _ rest)
    simp only [Run.uses, Specifier.roles, hr₁, hr₂, hr.pending, hpending, hshows₁.pending,
      hshows₂.pending, Kind.roles, if_neg hkind, List.append_assoc]
    rw [zip_append_of_length_eq hwidth.length_roles,
      zip_append_of_length_eq hprecision.length_roles,
      List.zip_append hwidth.length_roles, List.zip_append hprecision.length_roles]
    rfl

theorem readings_specifier (hr : r.Shows w P) (hpending : P.pending = vs ++ rest)
    (h : s.Outputs w P.slots (w.length P.text) vs p new) :
    Token.readings stores r (.specifier s) = (s.roles.zip vs).map fun (role, v) =>
      { spec := s, role, value := v, text := P.text, stores } := by
  have htakes : s.kind.takes s.length = true := by cases h <;> assumption
  simp only [Token.readings, htakes, hr.output, hr.uses_eq hpending h]

/-- What a token stores, by what it does to the progress. -/
theorem slots_eq (hr : r.Shows w P) (h : Progress.Step w t P Q) :
    Q.slots = t.stores r ++ P.slots := by
  obtain ⟨r', hrun, hr'⟩ := hr.exists_step h
  rw [← hr'.slots, (Run.advances_of_step hrun).slots, hr.slots]

theorem readings_cons (h : Run.step w t r = .ok () r') :
    Run.readings w (t :: ts) stores r =
      t.readings stores r ++ Run.readings w ts (t.stores r ++ stores) r' := by
  rw [Run.readings, h]

/-- Runs that have come equally far read the same. -/
theorem readings_eq (hr : r.Shows w P) (hr' : r'.Shows w P) (h : Progress.Steps w ts P Q)
    (stores : Slots) : Run.readings w ts stores r = Run.readings w ts stores r' := by
  induction h generalizing r r' stores with
  | nil => rfl
  | @cons t ts P M Q hstep hsteps ih =>
    obtain ⟨r₁, hrun, hr₁⟩ := hr.exists_step hstep
    obtain ⟨r₁', hrun', hr₁'⟩ := hr'.exists_step hstep
    have hstores : t.stores r = t.stores r' :=
      List.append_cancel_right ((hr.slots_eq hstep).symm.trans (hr'.slots_eq hstep))
    have htoken : t.readings stores r = t.readings stores r' := by
      cases hstep with
      | literal => rfl
      | specifier hpending hout _ =>
        rw [hr.readings_specifier hpending hout, hr'.readings_specifier hpending hout]
    rw [readings_cons hrun, readings_cons hrun', htoken, hstores, ih hr₁ hr₁']

end Run.Shows

end UnitText
