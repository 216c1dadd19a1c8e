import UnitText.Proofs.Run.Actions

/-!
# Actions that fail

For every action on a run, how it can have failed, and what it has done to the run by then.

## Main statements

- `Run.nextArgument_eq_error`, `Run.resolve_eq_error` — values that are not there or not suited
- `Run.emit_eq_error`, `Run.of_convert_eq_error` — output that cannot be written
- `Run.apply_eq_error` — a specifier that fails, taken apart
-/

namespace UnitText

namespace Run

variable {α β : Type} {w : Width} {s : Specifier} {r r' : Run} {e : Failure}

/-! ## Actions one after another -/

theorem bind_of_ok {x : RunM α} {f : α → RunM β} {a : α} (h : x r = .ok a r') :
    (x >>= f) r = f a r' := by
  simp only [Bind.bind, EStateM.bind, h]

theorem bind_of_error {x : RunM α} {f : α → RunM β} (h : x r = .error e r') :
    (x >>= f) r = .error e r' := by
  simp only [Bind.bind, EStateM.bind, h]

theorem bind_eq_error {x : RunM α} {f : α → RunM β} :
    (x >>= f) r = .error e r' ↔
      x r = .error e r' ∨ ∃ a r₁, x r = .ok a r₁ ∧ f a r₁ = .error e r' := by
  cases hx : x r with
  | ok a r₁ =>
    rw [bind_of_ok hx]
    constructor
    · exact fun h => .inr ⟨a, r₁, rfl, h⟩
    · rintro (h | ⟨_, _, h, hf⟩)
      · cases h
      · cases h
        exact hf
  | error e₁ r₁ => simp [bind_of_error hx]

theorem throw_eq_error {e₁ : Failure} : (throw e₁ : RunM α) r = .error e r' ↔ e₁ = e ∧ r = r' := by
  show EStateM.Result.error e₁ r = .error e r' ↔ _
  simp

theorem attempt_eq_error {x : Except Failure α} :
    attempt x r = .error e r' ↔ x = .error e ∧ r = r' := by
  cases x with
  | ok a => exact ⟨nofun, nofun⟩
  | error e₁ => simp [attempt, throw_eq_error]

/-! ## Actions -/

theorem next_eq_error :
    next s r = .error e r' ↔
      r.pending = [] ∧ .problem (.notEnoughArguments s (r.used + 1)) = e ∧ r = r' := by
  obtain ⟨pending, slots, used, pieces, written, phase, events⟩ := r
  cases pending with
  | nil =>
    show (throw (.problem (.notEnoughArguments s (used + 1))) : RunM Value) _ = _ ↔ _
    simp [throw_eq_error]
  | cons v rest =>
    constructor
    · intro h
      cases h
    · rintro ⟨h, -⟩
      cases h

/-- A value is missing, or the one that was consumed cannot be adapted. -/
theorem nextArgument_eq_error :
    nextArgument s r = .error e r' ↔
      (r.pending = [] ∧ .problem (.notEnoughArguments s (r.used + 1)) = e ∧ r = r') ∨
      ∃ v rest, r.pending = v :: rest ∧ (v.refresh r.slots).adapt = .error e ∧
        r' = { r with pending := rest, used := r.used + 1 } := by
  rw [nextArgument, bind_eq_error, next_eq_error]
  refine or_congr_right ⟨?_, ?_⟩
  · rintro ⟨v, r₁, hnext, h⟩
    obtain ⟨rest, hpending, rfl⟩ := next_eq_ok.1 hnext
    obtain ⟨ha, rfl⟩ := attempt_eq_error.1 h
    exact ⟨v, rest, hpending, ha, rfl⟩
  · rintro ⟨v, rest, hpending, ha, rfl⟩
    exact ⟨v, _, next_eq_ok.2 ⟨rest, hpending, rfl⟩, attempt_eq_error.2 ⟨ha, rfl⟩⟩

/-- Only a star fails, if its value is missing or is no integer. -/
theorem resolve_eq_error {role : StarRole} {c : Option Count} :
    resolve s role c r = .error e r' ↔ c = some .star ∧ (nextArgument s r = .error e r' ∨
      ∃ a, nextArgument s r = .ok a r' ∧ a.starValue s role = .error e) := by
  match c with
  | none => exact ⟨nofun, nofun⟩
  | some (.number n) => exact ⟨nofun, nofun⟩
  | some .star =>
    rw [resolve, bind_eq_error]
    simp only [true_and]
    refine or_congr_right (exists_congr fun a => ⟨?_, ?_⟩)
    · rintro ⟨r₁, ha, h⟩
      rcases bind_eq_error.1 h with hfails | ⟨n, r₂, -, hpure⟩
      · obtain ⟨hstar, rfl⟩ := attempt_eq_error.1 hfails
        exact ⟨ha, hstar⟩
      · cases hpure
    · rintro ⟨ha, hstar⟩
      exact ⟨r', ha, bind_of_error (attempt_eq_error.2 ⟨hstar, rfl⟩)⟩

/-- An action that adds output leaves the run as it is, or adds a piece. -/
theorem emit_eq_ok_iff {p : Piece} :
    emit w p r = .ok () r' ↔ (p.isEmpty = .ok true ∧ r' = r) ∨
      ∃ n, p.isEmpty = .ok false ∧ p.length w = .ok n ∧ r' = emitted p n r := by
  rw [emit, attempt_bind_eq_ok]
  constructor
  · rintro ⟨empty, hempty, h⟩
    cases empty with
    | true =>
      obtain ⟨-, rfl⟩ := Run.pure_eq_ok.1 h
      exact .inl ⟨hempty, rfl⟩
    | false =>
      obtain ⟨n, hn, h⟩ := attempt_bind_eq_ok.1 h
      exact .inr ⟨n, hempty, hn, modify_eq_ok.1 h⟩
  · rintro (⟨hempty, rfl⟩ | ⟨n, hempty, hn, rfl⟩)
    · exact ⟨true, hempty, rfl⟩
    · exact ⟨false, hempty, attempt_bind_eq_ok.2 ⟨n, hn, rfl⟩⟩

/-- Characters can always be added. -/
theorem emit_eq_error {p : Piece} (h : emit w p r = .error e r') :
    r' = r ∧ ∃ v, p = .value v := by
  cases p with
  | chars cs => cases cs <;> cases h
  | value v =>
    refine ⟨?_, v, rfl⟩
    rcases bind_eq_error.1 h with htest | ⟨empty, r₁, htest, hadd⟩
    · exact (attempt_eq_error.1 htest).2.symm
    · obtain ⟨-, rfl⟩ := attempt_eq_ok.1 htest
      cases empty with
      | true => cases hadd
      | false =>
        rcases bind_eq_error.1 hadd with hlength | ⟨n, r₂, -, hmodify⟩
        · exact (attempt_eq_error.1 hlength).2.symm
        · cases hmodify

/-- A conversion that cannot be written fails for the reason that it has. -/
theorem convert_eq_error {f : Field} {a : Argument} (h : f.render a = .error e) :
    ∃ r', convert f a r = .error e r' := by
  rw [convert, h]
  cases storedEvent? f.spec a with
  | none => exact ⟨_, rfl⟩
  | some event => exact ⟨_, rfl⟩

/-- A conversion that fails has reported something at most. It cannot be written, or what it writes
is no string. -/
theorem of_convert_eq_error {f : Field} {a : Argument} (h : convert f a r = .error e r') :
    (∃ events, r' = { r with events }) ∧
      (f.render a = .error e ∨ ∃ v, f.render a = .ok (.value v)) := by
  cases hrender : f.render a with
  | error e₁ =>
    rw [convert, hrender] at h
    cases hevent : storedEvent? f.spec a with
    | none =>
      rw [hevent] at h
      cases h
      exact ⟨⟨_, rfl⟩, .inl rfl⟩
    | some event =>
      rw [hevent] at h
      cases h
      exact ⟨⟨_, rfl⟩, .inl rfl⟩
  | ok p =>
    obtain ⟨events, hemit⟩ := convert_eq_emit (r := r) hrender
    rw [hemit] at h
    obtain ⟨rfl, v, rfl⟩ := emit_eq_error h
    refine ⟨⟨events, ?_⟩, .inr ⟨v, rfl⟩⟩
    -- a count conversion writes no value, and no other one stores
    cases hkind : f.spec.kind with
    | count =>
      rw [Field.render, hkind] at hrender
      obtain ⟨_, _, hrender⟩ := UnitText.bind_eq_ok.1 hrender
      obtain ⟨_, _, hrender⟩ := UnitText.bind_eq_ok.1 hrender
      cases hrender
    | _ => rfl

/-! ## Specifiers -/

/-- A run that has come to its end takes no specifier. -/
theorem apply_of_phase (hphase : r.phase ≠ .scanning) :
    apply w s r = .error (.defect (.unexpectedState r.phase.name)) r := by
  have hstart : apply w s r = (if r.phase ≠ .scanning then _ else _ : RunM Unit) r := rfl
  rw [hstart, if_pos hphase]
  rfl

theorem apply_of_length (hphase : r.phase = .scanning) (htakes : ¬s.kind.takes s.length) :
    apply w s r = .error (.problem (.lengthNotAllowed s)) r := by
  have hstart : apply w s r = (if r.phase ≠ .scanning then _ else _ : RunM Unit) r := rfl
  rw [hstart, if_neg (not_not_intro hphase)]
  simp only [htakes, Bool.not_false, ↓reduceIte]
  rfl

/-- What a specifier does that is allowed, in a run that can take one. -/
theorem apply_eq (hphase : r.phase = .scanning) (htakes : s.kind.takes s.length) :
    apply w s r = (do
      let width ← resolve s .width s.width
      let precision ← resolve s .precision s.precision
      if s.kind = .percent then
        report (.formatting s none)
        emit w (.chars (← attempt (Field.create s width precision w (← get).written).percent))
      else
        let a ← nextArgument s
        convert (Field.create s width precision w (← get).written) a : RunM Unit) r := by
  have hstart : apply w s r = (if r.phase ≠ .scanning then _ else _ : RunM Unit) r := rfl
  rw [hstart, if_neg (not_not_intro hphase)]
  simp only [htakes, Bool.not_true, Bool.false_eq_true, ↓reduceIte]

/-- A specifier that is allowed fails where its width or its precision cannot be read, where its
value is missing or cannot be adapted, or where it cannot be written. -/
theorem apply_eq_error (hphase : r.phase = .scanning) (htakes : s.kind.takes s.length) :
    apply w s r = .error e r' ↔ resolve s .width s.width r = .error e r' ∨
      ∃ width r₁, resolve s .width s.width r = .ok width r₁ ∧
        (resolve s .precision s.precision r₁ = .error e r' ∨
          ∃ precision r₂, resolve s .precision s.precision r₁ = .ok precision r₂ ∧
            if s.kind = .percent then
              (Field.create s width precision w r₂.written).percent = .error e ∧
                r' = { r₂ with events := .formatting s none :: r₂.events }
            else
              nextArgument s r₂ = .error e r' ∨ ∃ a r₃, nextArgument s r₂ = .ok a r₃ ∧
                convert (Field.create s width precision w r₃.written) a r₃ = .error e r') := by
  rw [apply_eq hphase htakes, bind_eq_error]
  refine or_congr_right ?_
  refine exists_congr fun width => exists_congr fun r₁ => and_congr_right fun _ => ?_
  rw [bind_eq_error]
  refine or_congr_right
    (exists_congr fun precision => exists_congr fun r₂ => and_congr_right fun _ => ?_)
  by_cases hkind : s.kind = .percent
  · simp only [hkind, ↓reduceIte]
    show (attempt (Field.create s width precision w r₂.written).percent >>= fun cs =>
        emit w (.chars cs)) { r₂ with events := .formatting s none :: r₂.events } = _ ↔ _
    rw [bind_eq_error, attempt_eq_error]
    constructor
    · rintro (⟨hcs, rfl⟩ | ⟨cs, r₃, -, hemit⟩)
      · exact ⟨hcs, rfl⟩
      · obtain ⟨-, v, hv⟩ := emit_eq_error hemit
        cases hv
    · rintro ⟨hcs, rfl⟩
      exact .inl ⟨hcs, rfl⟩
  · simp only [hkind, ↓reduceIte]
    rw [bind_eq_error]
    rfl

end Run

end UnitText
