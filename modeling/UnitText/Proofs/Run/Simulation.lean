import UnitText.Proofs.Encoding.Width
import UnitText.Proofs.Run.Actions

/-!
# Runs and their progress

A run that goes well shows how far it has come: its counter is the number of units of the output so
far. Each token does to the run what it does to the progress, and whatever can be done to the
progress the run does. So what holds of all steps holds of all runs that give a result.

## Main definitions

- `Run.Shows` — a run has come so far

## Main statements

- `Run.Shows.steps`, `Run.Shows.exists_steps` — runs and progress go together
- `Formatter.format_eq_ok`, `Formatter.exists_format` — formatting that gives a result
-/

namespace UnitText

/-- A run has come so far, and can go on. -/
structure Run.Shows (w : Width) (r : Run) (P : Progress) : Prop where
  /-- The run has neither failed nor ended. -/
  phase : r.phase = .scanning
  pending : r.pending = P.pending
  slots : r.slots = P.slots
  output : Piece.join r.output = .ok P.text
  /-- The counter is the number of units of the output. -/
  written : r.written = w.length P.text

namespace Run

variable {w : Width} {s : Specifier} {r r' : Run} {P Q : Progress}

theorem shows_initial (w : Width) (slots : Slots) (values : List Value) :
    Shows w { pending := values, slots } { pending := values, slots, text := [] } :=
  ⟨rfl, rfl, rfl, rfl, rfl⟩

namespace Shows

/-- A run does not remember the counts that it stored. -/
theorem with_counts (hr : r.Shows w P) (ns : List Nat) : r.Shows w { P with counts := ns } :=
  ⟨hr.phase, hr.pending, hr.slots, hr.output, hr.written⟩

/-! ## Steps of a run are steps of its progress -/

theorem resolve (hr : r.Shows w P) {role : StarRole} {c : Option Count} {n : Option Int}
    (h : Run.resolve s role c r = .ok n r') :
    ∃ vs rest, Count.Reads s role P.slots c vs n ∧ P.pending = vs ++ rest ∧
      r'.Shows w { P with pending := rest } := by
  obtain ⟨vs, rest, hreads, hpending, rfl⟩ := resolve_eq_ok.1 h
  rw [hr.slots] at hreads
  rw [hr.pending] at hpending
  exact ⟨vs, rest, hreads, hpending, hr.phase, rfl, hr.slots, hr.output, hr.written⟩

theorem emit (hr : r.Shows w P) {p : Piece} {text : Chars} (h : Run.emit w p r = .ok () r')
    (hjoin : Piece.join r'.output = .ok text) :
    ∃ cs, p.Adds cs ∧ r'.Shows w { P with text := P.text ++ cs } := by
  obtain ⟨text, cs, htext, hadds, rfl, hr'⟩ := emit_eq_ok h hjoin
  rw [hr.output] at htext
  obtain rfl := Except.ok.inj htext
  refine ⟨cs, hadds, ?_, ?_, ?_, hjoin, ?_⟩
  · rw [hr', hr.phase]
  · rw [hr', hr.pending]
  · rw [hr', hr.slots]
  · rw [hr', hr.written, Width.length_append]

theorem nextArgument (hr : r.Shows w P) {a : Argument} (h : Run.nextArgument s r = .ok a r') :
    ∃ v rest, P.pending = v :: rest ∧ (v.refresh P.slots).adapt = .ok a ∧
      r'.Shows w { P with pending := rest } := by
  obtain ⟨v, rest, hpending, ha, rfl⟩ := nextArgument_eq_ok.1 h
  rw [hr.pending] at hpending
  rw [hr.slots] at ha
  exact ⟨v, rest, hpending, ha, hr.phase, rfl, hr.slots, hr.output, hr.written⟩

theorem store (hr : r.Shows w P) (events : List Event) (k : Kind) (v : Value) :
    Shows w { r with events, slots := k.stores r.written v ++ r.slots }
      { P with slots := k.stores (w.length P.text) v ++ P.slots } :=
  ⟨hr.phase, hr.pending, by rw [hr.written, hr.slots], hr.output, hr.written⟩

theorem convert (hr : r.Shows w P) {f : Field} (hf : f.charWidth = w) {a : Argument} {text : Chars}
    (h : Run.convert f a r = .ok () r') (hjoin : Piece.join r'.output = .ok text) :
    ∃ p cs, f.render a = .ok p ∧ p.Adds cs ∧ r'.Shows w { P with
      slots := f.spec.kind.stores (w.length P.text) a.value ++ P.slots, text := P.text ++ cs } := by
  obtain ⟨p, hp⟩ := render_eq_ok_of_convert h
  obtain ⟨events, hemit⟩ := convert_eq_emit hp
  rw [hemit, hf] at h
  obtain ⟨cs, hadds, hr'⟩ := (hr.store events f.spec.kind a.value).emit h hjoin
  exact ⟨p, cs, hp, hadds, hr'⟩

/-- A specifier does to a run what it does to the progress. -/
theorem apply (hr : r.Shows w P) {text : Chars} (h : Run.apply w s r = .ok () r')
    (hjoin : Piece.join r'.output = .ok text) :
    ∃ Q, Progress.Step w (.specifier s) P Q ∧ r'.Shows w Q := by
  obtain ⟨-, htakes, width, r₁, hwidth, precision, r₂, hprecision, h⟩ := apply_eq_ok.1 h
  obtain ⟨vs, rest₁, hvs, hpending₁, hr₁⟩ := hr.resolve hwidth
  obtain ⟨us, rest₂, hus, hpending₂, hr₂⟩ := hr₁.resolve hprecision
  simp only at hpending₂ hus
  split at h
  · next hkind =>
    obtain ⟨cs, hcs, hemit⟩ := h
    have hr₃ : Shows w { r₂ with events := .formatting s none :: r₂.events } _ :=
      ⟨hr₂.phase, hr₂.pending, hr₂.slots, hr₂.output, hr₂.written⟩
    obtain ⟨ds, hadds, hr'⟩ := hr₃.emit hemit hjoin
    rw [hr₂.written] at hcs
    refine ⟨_, .specifier ?_ (.percent hkind htakes hvs hus hcs) hadds, hr'.with_counts _⟩
    rw [hpending₁, hpending₂, List.append_assoc]
  · next hkind =>
    obtain ⟨a, r₃, ha, hconvert⟩ := h
    obtain ⟨v, rest, hpending, hadapt, hr₃⟩ := hr₂.nextArgument ha
    obtain ⟨p, cs, hp, hadds, hr'⟩ := hr₃.convert rfl hconvert hjoin
    rw [hr₃.written] at hp
    refine ⟨_, .specifier ?_ (.value hkind htakes hvs hus hadapt hp) hadds, hr'.with_counts _⟩
    simp only at hpending
    rw [hpending₁, hpending₂, hpending]
    simp

theorem step (hr : r.Shows w P) {t : Token} {text : Chars} (h : Run.step w t r = .ok () r')
    (hjoin : Piece.join r'.output = .ok text) : ∃ Q, Progress.Step w t P Q ∧ r'.Shows w Q := by
  cases t with
  | specifier s => exact hr.apply h hjoin
  | literal cs offset =>
    obtain ⟨ds, hadds, hr'⟩ := hr.emit h hjoin
    cases hadds
    exact ⟨_, .literal cs offset P, hr'⟩

/-! ## Steps of the progress are steps of the run -/

theorem exists_resolve (hr : r.Shows w P) {role : StarRole} {c : Option Count} {n : Option Int}
    {vs rest : List Value} (hreads : Count.Reads s role P.slots c vs n)
    (hpending : P.pending = vs ++ rest) :
    ∃ r', Run.resolve s role c r = .ok n r' ∧ r'.Shows w { P with pending := rest } := by
  rw [← hr.slots] at hreads
  rw [← hr.pending] at hpending
  exact ⟨_, resolve_eq_ok.2 ⟨vs, rest, hreads, hpending, rfl⟩, hr.phase, rfl, hr.slots, hr.output,
    hr.written⟩

theorem exists_emit (hr : r.Shows w P) {p : Piece} {cs : Chars} (hadds : p.Adds cs) :
    ∃ r', Run.emit w p r = .ok () r' ∧ r'.Shows w { P with text := P.text ++ cs } := by
  obtain ⟨pieces, hemit, hjoin⟩ := Run.exists_emit (w := w) hadds hr.output
  refine ⟨_, hemit, hr.phase, hr.pending, hr.slots, hjoin, ?_⟩
  simp [hr.written]

theorem exists_nextArgument (hr : r.Shows w P) {v : Value} {rest : List Value} {a : Argument}
    (hpending : P.pending = v :: rest) (ha : (v.refresh P.slots).adapt = .ok a) :
    ∃ r', Run.nextArgument s r = .ok a r' ∧ r'.Shows w { P with pending := rest } := by
  rw [← hr.slots] at ha
  rw [← hr.pending] at hpending
  exact ⟨_, nextArgument_eq_ok.2 ⟨v, rest, hpending, ha, rfl⟩, hr.phase, rfl, hr.slots, hr.output,
    hr.written⟩

theorem exists_convert (hr : r.Shows w P) {f : Field} (hf : f.charWidth = w) {a : Argument}
    {p : Piece} {cs : Chars} (hp : f.render a = .ok p) (hadds : p.Adds cs) :
    ∃ r', Run.convert f a r = .ok () r' ∧ r'.Shows w { P with
      slots := f.spec.kind.stores (w.length P.text) a.value ++ P.slots, text := P.text ++ cs } := by
  obtain ⟨events, hconvert⟩ := convert_eq_emit (r := r) hp
  rw [hconvert, hf]
  exact (hr.store events f.spec.kind a.value).exists_emit hadds

/-- What a specifier can do to the progress it does to the run. -/
theorem exists_apply (hr : r.Shows w P) {vs rest : List Value} {p : Piece} {cs : Chars}
    {stores : Slots} (hpending : P.pending = vs ++ rest)
    (h : s.Outputs w P.slots (w.length P.text) vs p stores) (hadds : p.Adds cs) :
    ∃ r', Run.apply w s r = .ok () r' ∧ ∀ ns, r'.Shows w {
      pending := rest, slots := stores ++ P.slots, text := P.text ++ cs, counts := ns } := by
  cases h with
  | @percent vs us width precision ds hkind htakes hvs hus hds =>
    rw [List.append_assoc] at hpending
    obtain ⟨r₁, hwidth, hr₁⟩ := hr.exists_resolve hvs hpending
    obtain ⟨r₂, hprecision, hr₂⟩ := hr₁.exists_resolve hus rfl
    have hr₃ : Shows w { r₂ with events := .formatting s none :: r₂.events } _ :=
      ⟨hr₂.phase, hr₂.pending, hr₂.slots, hr₂.output, hr₂.written⟩
    obtain ⟨r', hemit, hr'⟩ := hr₃.exists_emit hadds
    refine ⟨r', apply_eq_ok.2 ⟨hr.phase, htakes, width, r₁, hwidth, precision, r₂, hprecision, ?_⟩,
      hr'.with_counts⟩
    rw [if_pos hkind]
    refine ⟨ds, ?_, hemit⟩
    rw [hr₂.written]
    exact hds
  | @value vs us v width precision a _ hkind htakes hvs hus ha hp =>
    rw [List.append_assoc] at hpending
    obtain ⟨r₁, hwidth, hr₁⟩ := hr.exists_resolve hvs hpending
    obtain ⟨r₂, hprecision, hr₂⟩ := hr₁.exists_resolve hus (List.append_assoc us [v] rest)
    obtain ⟨r₃, hnext, hr₃⟩ := hr₂.exists_nextArgument (s := s) rfl ha
    obtain ⟨r', hconvert, hr'⟩ := hr₃.exists_convert rfl hp hadds
    refine ⟨r', apply_eq_ok.2 ⟨hr.phase, htakes, width, r₁, hwidth, precision, r₂, hprecision, ?_⟩,
      hr'.with_counts⟩
    rw [if_neg hkind]
    refine ⟨a, r₃, hnext, ?_⟩
    rw [hr₃.written]
    exact hconvert

theorem exists_step (hr : r.Shows w P) {t : Token} (h : Progress.Step w t P Q) :
    ∃ r', Run.step w t r = .ok () r' ∧ r'.Shows w Q := by
  cases h with
  | literal cs offset => exact hr.exists_emit (.chars cs)
  | specifier hpending hout hadds =>
    obtain ⟨r', hrun, hr'⟩ := hr.exists_apply hpending hout hadds
    exact ⟨r', hrun, hr' _⟩

end Shows

/-! ## Whole runs -/

/-- Output that can be joined behind a token could be joined before it. -/
theorem exists_join_of_step {t : Token} {text' : Chars} (h : step w t r = .ok () r')
    (hjoin : Piece.join r'.output = .ok text') : ∃ text, Piece.join r.output = .ok text := by
  have hemit : ∀ {p : Piece} {r₁ : Run}, emit w p r₁ = .ok () r' → r₁.pieces = r.pieces →
      ∃ text, Piece.join r.output = .ok text := by
    intro p r₁ hemit hpieces
    obtain ⟨text, cs, htext, -⟩ := emit_eq_ok hemit hjoin
    rw [output, hpieces] at htext
    exact ⟨text, htext⟩
  cases t with
  | literal cs offset => exact hemit h rfl
  | specifier s =>
    -- values are consumed and events reported before any output is added
    obtain ⟨-, -, width, r₁, hwidth, precision, r₂, hprecision, h⟩ := apply_eq_ok.1 h
    obtain ⟨vs, rest₁, -, -, hr₁⟩ := resolve_eq_ok.1 hwidth
    obtain ⟨us, rest₂, -, -, hr₂⟩ := resolve_eq_ok.1 hprecision
    have hpieces : r₂.pieces = r.pieces := by rw [hr₂, hr₁]
    split at h
    · obtain ⟨cs, -, h⟩ := h
      exact hemit h hpieces
    · obtain ⟨a, r₃, ha, hconvert⟩ := h
      obtain ⟨v, rest, -, -, hr₃⟩ := nextArgument_eq_ok.1 ha
      obtain ⟨p, hp⟩ := render_eq_ok_of_convert hconvert
      obtain ⟨events, h⟩ := convert_eq_emit hp
      rw [h] at hconvert
      refine hemit hconvert ?_
      rw [hr₃]
      exact hpieces

theorem exists_join_of_forM {ts : List Token} {text' : Chars} (h : ts.forM (step w) r = .ok () r')
    (hjoin : Piece.join r'.output = .ok text') : ∃ text, Piece.join r.output = .ok text := by
  induction ts generalizing r with
  | nil =>
    obtain ⟨-, rfl⟩ := Run.pure_eq_ok.1 h
    exact ⟨text', hjoin⟩
  | cons t ts ih =>
    obtain ⟨_, r₁, hstep, hrest⟩ := bind_eq_ok.1 h
    obtain ⟨text, htext⟩ := ih hrest
    exact exists_join_of_step hstep htext

namespace Shows

theorem steps (hr : r.Shows w P) {ts : List Token} {text : Chars}
    (h : ts.forM (Run.step w) r = .ok () r') (hjoin : Piece.join r'.output = .ok text) :
    ∃ Q, Progress.Steps w ts P Q ∧ r'.Shows w Q := by
  induction ts generalizing r P with
  | nil =>
    obtain ⟨-, rfl⟩ := Run.pure_eq_ok.1 h
    exact ⟨P, .nil P, hr⟩
  | cons t ts ih =>
    obtain ⟨_, r₁, hstep, hrest⟩ := bind_eq_ok.1 h
    -- no token takes back a piece, so what can be joined in the end could be joined in between
    obtain ⟨text₁, htext₁⟩ := exists_join_of_forM hrest hjoin
    obtain ⟨M, hM, hr₁⟩ := hr.step hstep htext₁
    obtain ⟨Q, hQ, hr'⟩ := ih hr₁ hrest
    exact ⟨Q, .cons hM hQ, hr'⟩

theorem exists_steps (hr : r.Shows w P) {ts : List Token} (h : Progress.Steps w ts P Q) :
    ∃ r', ts.forM (Run.step w) r = .ok () r' ∧ r'.Shows w Q := by
  induction h generalizing r with
  | nil P => exact ⟨r, rfl, hr⟩
  | cons hstep _ ih =>
    obtain ⟨r₁, hrun, hr₁⟩ := hr.exists_step hstep
    obtain ⟨r', hrest, hr'⟩ := ih hr₁
    exact ⟨r', bind_eq_ok.2 ⟨(), r₁, hrun, hrest⟩, hr'⟩

/-- The counts that tokens store in a run are those that they add to its progress. -/
theorem counts_eq (hr : r.Shows w P) {ts : List Token} (h : Progress.Steps w ts P Q) :
    Q.counts = P.counts ++ Run.counts w ts r := by
  induction h generalizing r with
  | nil P => exact (List.append_nil _).symm
  | cons hstep _ ih =>
    obtain ⟨r₁, hrun, hr₁⟩ := hr.exists_step hstep
    rw [ih hr₁, hstep.counts_eq, Run.counts, hrun, hr.written, List.append_assoc]

end Shows

end Run

namespace Formatter

variable {f : Formatter} {slots : Slots} {values : List Value} {R : Text} {r : Run}

/-- A run of a formatter succeeds if its tokens do and the scan came to the end. -/
theorem run_eq_ok {r₀ : Run} : f.run r₀ = .ok () r ↔
    (Scan.ofChars f.template).tokens.forM (Run.step f.width) r₀ = .ok () r ∧
      (Scan.ofChars f.template).failure = none := by
  rw [run, Run.bind_eq_ok]
  cases (Scan.ofChars f.template).failure with
  | none =>
    simp only [Run.pure_eq_ok, true_and, exists_eq_right, and_true]
    exact ⟨fun ⟨_, h⟩ => h, fun h => ⟨(), h⟩⟩
  | some e => simp [Run.throw_ne_ok]

theorem format_eq_ok : f.format slots values = (.ok R, r) ↔ ∃ r₁ text,
    f.run { pending := values, slots } = .ok () r₁ ∧ Piece.join r₁.output = .ok text ∧
      Text.encodeLike text f.container = .ok R ∧ r = r₁.finish := by
  simp only [format, execute]
  cases f.run { pending := values, slots } with
  | error e r₁ => simp [Bind.bind, Except.bind]
  | ok u r₁ =>
    simp only [Prod.mk.injEq, UnitText.bind_eq_ok, EStateM.Result.ok.injEq, true_and]
    constructor
    · rintro ⟨⟨text, htext, hR⟩, rfl⟩
      exact ⟨r₁, text, rfl, htext, hR, rfl⟩
    · rintro ⟨_, text, rfl, htext, hR, rfl⟩
      exact ⟨⟨text, htext, hR⟩, rfl⟩

/-- A result of formatting comes with the run that gave it. -/
theorem format_of_toOption (h : (f.format slots values).1.toOption = some R) :
    f.format slots values = (.ok R, (f.format slots values).2) := by
  cases hresult : (f.format slots values).1 with
  | error e =>
    rw [hresult] at h
    cases h
  | ok R' =>
    rw [hresult] at h
    obtain rfl := Option.some.inj h
    exact Prod.ext hresult rfl

theorem toOption_of_format (h : f.format slots values = (.ok R, r)) :
    (f.format slots values).1.toOption = some R := by
  rw [h]
  rfl

/-- Formatting that gives a result is progress through all tokens of the template. -/
theorem exists_steps_of_format (h : f.format slots values = (.ok R, r)) :
    ∃ P, Progress.Steps f.width (Scan.ofChars f.template).tokens ⟨values, slots, [], []⟩ P ∧
      (Scan.ofChars f.template).failure = none ∧ Text.encodeLike P.text f.container = .ok R ∧
      r.slots = P.slots ∧ r.written = f.width.length P.text ∧ f.counts slots values = P.counts := by
  obtain ⟨r₁, text, hrun, hjoin, hR, rfl⟩ := format_eq_ok.1 h
  obtain ⟨hrun, hfailure⟩ := run_eq_ok.1 hrun
  obtain ⟨P, hP, hr₁⟩ := (Run.shows_initial f.width slots values).steps hrun hjoin
  rw [hr₁.output] at hjoin
  obtain rfl := Except.ok.inj hjoin
  have hcounts := (Run.shows_initial f.width slots values).counts_eq hP
  exact ⟨P, hP, hfailure, hR, hr₁.slots, hr₁.written, hcounts.symm⟩

/-- Progress through all tokens of a template is formatting that gives a result. -/
theorem exists_format {P : Progress}
    (h : Progress.Steps f.width (Scan.ofChars f.template).tokens ⟨values, slots, [], []⟩ P)
    (hfailure : (Scan.ofChars f.template).failure = none)
    (hR : Text.encodeLike P.text f.container = .ok R) :
    ∃ r, f.format slots values = (.ok R, r) ∧ r.slots = P.slots ∧
      f.counts slots values = P.counts := by
  obtain ⟨r₁, hrun, hr₁⟩ := (Run.shows_initial f.width slots values).exists_steps h
  have hcounts := (Run.shows_initial f.width slots values).counts_eq h
  exact ⟨r₁.finish, format_eq_ok.2 ⟨r₁, P.text, run_eq_ok.2 ⟨hrun, hfailure⟩, hr₁.output, hR, rfl⟩,
    hr₁.slots, hcounts.symm⟩

end Formatter

end UnitText
