import UnitText.Proofs.Result
import UnitText.Proofs.Run.Progress

/-!
# Actions that succeed

For every action on a run, what it did if it succeeded: the values that it consumed, the output that
it added, and what it stored. The events that it reported are left open.

## Main statements

- `Run.resolve_eq_ok`, `Run.nextArgument_eq_ok` — what is consumed
- `Run.emit_eq_ok`, `Run.exists_emit` — what is added to output that can be joined
- `Run.convert_eq_emit` — what a conversion does
- `Run.apply_eq_ok` — a specifier, taken apart
-/

namespace UnitText

/-- Pieces can be joined if those before the last one can, and it is made of characters. -/
theorem Piece.joinFrom_concat {n : Nat} {ps : List Piece} {p : Piece} {text : Chars} :
    joinFrom n (ps ++ [p]) = .ok text ↔
      ∃ cs ds, joinFrom n ps = .ok cs ∧ p = .chars ds ∧ text = cs ++ ds := by
  induction ps generalizing n text with
  | nil =>
    cases p with
    | chars ds =>
      have hjoin : joinFrom n [chars ds] = .ok (ds ++ []) := rfl
      rw [List.nil_append, hjoin]
      simp [joinFrom, eq_comm]
    | value v => simp [joinFrom]
  | cons q ps ih =>
    cases q with
    | value v => simp [joinFrom]
    | chars es =>
      rw [List.cons_append, joinFrom, bind_eq_ok]
      simp only [pure_eq_ok, ih, joinFrom, bind_eq_ok]
      constructor
      · rintro ⟨_, ⟨cs, ds, hcs, rfl, rfl⟩, rfl⟩
        exact ⟨es ++ cs, ds, ⟨cs, hcs, rfl⟩, rfl, by simp⟩
      · rintro ⟨_, ds, ⟨cs, hcs, rfl⟩, rfl, rfl⟩
        exact ⟨cs ++ ds, ⟨cs, ds, hcs, rfl, rfl⟩, by simp⟩

namespace Run

variable {α β : Type} {w : Width} {s : Specifier} {r r' : Run}

/-! ## Actions one after another -/

theorem bind_eq_ok {x : RunM α} {f : α → RunM β} {b : β} :
    (x >>= f) r = .ok b r' ↔ ∃ a r₁, x r = .ok a r₁ ∧ f a r₁ = .ok b r' := by
  simp only [Bind.bind, EStateM.bind]
  cases x r with
  | ok a r₁ =>
    constructor
    · exact fun h => ⟨a, r₁, rfl, h⟩
    · rintro ⟨_, _, hx, hf⟩
      cases hx
      exact hf
  | error e r₁ => simp

theorem pure_eq_ok {a b : α} : (pure a : RunM α) r = .ok b r' ↔ a = b ∧ r = r' := by
  simp [Pure.pure, EStateM.pure]

theorem throw_ne_ok {e : Failure} {a : α} : (throw e : RunM α) r ≠ .ok a r' := nofun

theorem get_eq_ok {r₁ : Run} : (get : RunM Run) r = .ok r₁ r' ↔ r = r₁ ∧ r = r' := by
  show EStateM.Result.ok r r = .ok r₁ r' ↔ _
  simp

theorem set_eq_ok {r₁ : Run} {a : PUnit} : (set r₁ : RunM PUnit) r = .ok a r' ↔ r' = r₁ := by
  show EStateM.Result.ok PUnit.unit r₁ = .ok a r' ↔ _
  simp [eq_comm]

theorem modify_eq_ok {f : Run → Run} {a : PUnit} :
    (modify f : RunM PUnit) r = .ok a r' ↔ r' = f r := by
  show EStateM.Result.ok PUnit.unit (f r) = .ok a r' ↔ _
  simp [eq_comm]

theorem attempt_eq_ok {x : Except Failure α} {a : α} :
    attempt x r = .ok a r' ↔ x = .ok a ∧ r = r' := by
  cases x with
  | ok b => simp [attempt, Run.pure_eq_ok]
  | error e => simp [attempt, throw_ne_ok]

theorem get_bind_eq_ok {f : Run → RunM α} {a : α} : (get >>= f) r = .ok a r' ↔ f r r = .ok a r' :=
  .rfl

theorem report_bind_eq_ok {e : Event} {x : RunM α} {a : α} :
    (report e >>= fun _ => x) r = .ok a r' ↔ x { r with events := e :: r.events } = .ok a r' := .rfl

theorem attempt_bind_eq_ok {x : Except Failure α} {f : α → RunM β} {b : β} :
    (attempt x >>= f) r = .ok b r' ↔ ∃ a, x = .ok a ∧ f a r = .ok b r' := by
  cases x with
  | ok a =>
    constructor
    · exact fun h => ⟨a, rfl, h⟩
    · rintro ⟨_, ha, hf⟩
      obtain rfl := Except.ok.inj ha
      exact hf
  | error e => exact ⟨nofun, fun ⟨_, he, _⟩ => nomatch he⟩

/-! ## Consuming values -/

theorem next_eq_ok {v : Value} :
    next s r = .ok v r' ↔
      ∃ rest, r.pending = v :: rest ∧ r' = { r with pending := rest, used := r.used + 1 } := by
  rw [next, bind_eq_ok]
  constructor
  · rintro ⟨_, _, hget, h⟩
    obtain ⟨rfl, rfl⟩ := get_eq_ok.1 hget
    cases hpending : r.pending with
    | nil =>
      rw [hpending] at h
      exact absurd h throw_ne_ok
    | cons v₁ rest =>
      rw [hpending] at h
      obtain ⟨_, _, hset, h⟩ := bind_eq_ok.1 h
      obtain ⟨rfl, rfl⟩ := Run.pure_eq_ok.1 h
      exact ⟨rest, rfl, set_eq_ok.1 hset⟩
  · rintro ⟨rest, hpending, rfl⟩
    refine ⟨r, r, get_eq_ok.2 ⟨rfl, rfl⟩, ?_⟩
    rw [hpending]
    rfl

theorem nextArgument_eq_ok {a : Argument} :
    nextArgument s r = .ok a r' ↔ ∃ v rest, r.pending = v :: rest ∧
      (v.refresh r.slots).adapt = .ok a ∧ r' = { r with pending := rest, used := r.used + 1 } := by
  rw [nextArgument, bind_eq_ok]
  constructor
  · rintro ⟨v, _, hnext, h⟩
    obtain ⟨rest, hpending, rfl⟩ := next_eq_ok.1 hnext
    obtain ⟨_, _, hget, h⟩ := bind_eq_ok.1 h
    obtain ⟨rfl, rfl⟩ := get_eq_ok.1 hget
    obtain ⟨ha, rfl⟩ := attempt_eq_ok.1 h
    exact ⟨v, rest, hpending, ha, rfl⟩
  · rintro ⟨v, rest, hpending, ha, rfl⟩
    refine ⟨v, _, next_eq_ok.2 ⟨rest, hpending, rfl⟩, ?_⟩
    exact bind_eq_ok.2 ⟨_, _, get_eq_ok.2 ⟨rfl, rfl⟩, attempt_eq_ok.2 ⟨ha, rfl⟩⟩

/-- A width or a precision consumes the values that it reads. -/
theorem resolve_eq_ok {role : StarRole} {c : Option Count} {n : Option Int} :
    resolve s role c r = .ok n r' ↔ ∃ vs rest, Count.Reads s role r.slots c vs n ∧
      r.pending = vs ++ rest ∧ r' = { r with pending := rest, used := r.used + vs.length } := by
  constructor
  · intro h
    match c with
    | none =>
      obtain ⟨rfl, rfl⟩ := Run.pure_eq_ok.1 h
      exact ⟨[], r.pending, .none, rfl, rfl⟩
    | some (.number m) =>
      obtain ⟨rfl, rfl⟩ := Run.pure_eq_ok.1 h
      exact ⟨[], r.pending, .number m, rfl, rfl⟩
    | some .star =>
      obtain ⟨a, _, hnext, h⟩ := bind_eq_ok.1 h
      obtain ⟨v, rest, hpending, ha, rfl⟩ := nextArgument_eq_ok.1 hnext
      obtain ⟨m, _, hstar, h⟩ := bind_eq_ok.1 h
      obtain ⟨hn, rfl⟩ := attempt_eq_ok.1 hstar
      obtain ⟨rfl, rfl⟩ := Run.pure_eq_ok.1 h
      exact ⟨[v], rest, .star ha hn, hpending, rfl⟩
  · rintro ⟨vs, rest, hreads, hpending, rfl⟩
    cases hreads with
    | none =>
      obtain rfl : r.pending = rest := hpending
      rfl
    | number m =>
      obtain rfl : r.pending = rest := hpending
      rfl
    | star ha hn =>
      refine bind_eq_ok.2 ⟨_, _, nextArgument_eq_ok.2 ⟨_, rest, hpending, ha, rfl⟩, ?_⟩
      exact bind_eq_ok.2 ⟨_, _, attempt_eq_ok.2 ⟨hn, rfl⟩, rfl⟩

/-! ## Adding output -/

/-- A piece that was added to output that can still be joined adds characters to it. -/
theorem emit_eq_ok {p : Piece} {text' : Chars} (h : emit w p r = .ok () r')
    (hjoin : Piece.join r'.output = .ok text') :
    ∃ text cs, Piece.join r.output = .ok text ∧ p.Adds cs ∧ text' = text ++ cs ∧
      r' = { r with pieces := r'.pieces, written := r.written + w.length cs } := by
  obtain ⟨empty, _, htest, h⟩ := bind_eq_ok.1 h
  obtain ⟨hempty, rfl⟩ := attempt_eq_ok.1 htest
  -- an empty piece is not kept, and a value is empty if it is false
  cases empty with
  | true =>
    obtain ⟨-, rfl⟩ := Run.pure_eq_ok.1 h
    refine ⟨text', [], hjoin, ?_, by simp, rfl⟩
    cases p with
    | chars cs =>
      obtain rfl : cs = [] := by simpa [Piece.isEmpty] using hempty
      exact .chars []
    | value v =>
      obtain ⟨b, hb, hnot⟩ := UnitText.bind_eq_ok.1 hempty
      obtain rfl : b = false := by simpa using UnitText.pure_eq_ok.1 hnot
      exact .value hb
  | false =>
    obtain ⟨n, _, hlength, h⟩ := bind_eq_ok.1 h
    obtain ⟨hn, rfl⟩ := attempt_eq_ok.1 hlength
    obtain rfl := modify_eq_ok.1 h
    have houtput : (emitted p n r).output = r.output ++ [p] := List.reverse_cons
    rw [houtput] at hjoin
    obtain ⟨text, cs, htext, rfl, rfl⟩ := Piece.joinFrom_concat.1 hjoin
    obtain rfl : w.length cs = n := Except.ok.inj hn
    exact ⟨text, cs, htext, .chars cs, rfl, rfl⟩

/-- A piece that adds characters is added to output that can be joined. -/
theorem exists_emit {p : Piece} {cs text : Chars} (hadds : p.Adds cs)
    (hjoin : Piece.join r.output = .ok text) :
    ∃ pieces, emit w p r = .ok () { r with pieces, written := r.written + w.length cs } ∧
      Piece.join pieces.reverse = .ok (text ++ cs) := by
  cases hadds with
  | value hv =>
    refine ⟨r.pieces, ?_, by rwa [List.append_nil]⟩
    refine bind_eq_ok.2 ⟨true, r, attempt_eq_ok.2 ⟨?_, rfl⟩, rfl⟩
    exact UnitText.bind_eq_ok.2 ⟨false, hv, rfl⟩
  | chars cs =>
    cases cs with
    | nil => exact ⟨r.pieces, rfl, by rwa [List.append_nil]⟩
    | cons c cs =>
      refine ⟨.chars (c :: cs) :: r.pieces, rfl, ?_⟩
      rw [List.reverse_cons]
      exact Piece.joinFrom_concat.2 ⟨text, c :: cs, hjoin, rfl, rfl⟩

/-- A conversion that has output stores what it has to store, and adds its output. -/
theorem convert_eq_emit {f : Field} {a : Argument} {p : Piece} (h : f.render a = .ok p) :
    ∃ events, convert f a r = emit f.charWidth p { r with
      events := events, slots := f.spec.kind.stores r.written a.value ++ r.slots } := by
  refine ⟨(storedEvent? f.spec a).toList ++ .formatting f.spec (some a.description) :: r.events, ?_⟩
  rw [convert, h]
  unfold Kind.stores
  cases storedEvent? f.spec a with
  | none =>
    cases f.spec.kind with
    | count => cases a.value.place? <;> rfl
    | _ => rfl
  | some e =>
    cases f.spec.kind with
    | count => cases a.value.place? <;> rfl
    | _ => rfl

theorem render_eq_ok_of_convert {f : Field} {a : Argument} (h : convert f a r = .ok () r') :
    ∃ p, f.render a = .ok p := by
  cases hrender : f.render a with
  | ok p => exact ⟨p, rfl⟩
  | error e =>
    rw [convert, hrender] at h
    obtain ⟨_, _, _, h⟩ := bind_eq_ok.1 h
    cases hevent : storedEvent? f.spec a with
    | none =>
      simp only [hevent] at h
      exact absurd h throw_ne_ok
    | some e' =>
      simp only [hevent] at h
      obtain ⟨_, _, _, h⟩ := bind_eq_ok.1 h
      exact absurd h throw_ne_ok

/-! ## Specifiers -/

/-- A specifier that is applied with success: its width and its precision are read, and then it is a
percent sign or a conversion of the next value. -/
theorem apply_eq_ok :
    apply w s r = .ok () r' ↔ r.phase = .scanning ∧ s.kind.takes s.length ∧
      ∃ width r₁, resolve s .width s.width r = .ok width r₁ ∧
        ∃ precision r₂, resolve s .precision s.precision r₁ = .ok precision r₂ ∧
          if s.kind = .percent then
            ∃ cs, (Field.create s width precision w r₂.written).percent = .ok cs ∧
              emit w (.chars cs) { r₂ with events := .formatting s none :: r₂.events } = .ok () r'
          else
            ∃ a r₃, nextArgument s r₂ = .ok a r₃ ∧
              convert (Field.create s width precision w r₃.written) a r₃ = .ok () r' := by
  rw [apply, get_bind_eq_ok]
  by_cases hphase : r.phase = .scanning
  case neg => simp [hphase, bind_eq_ok, throw_ne_ok]
  by_cases htakes : s.kind.takes s.length
  case neg => simp [hphase, htakes, bind_eq_ok, throw_ne_ok]
  simp only [hphase, htakes, ne_eq, not_true_eq_false, ↓reduceIte, Bool.not_true,
    Bool.false_eq_true, bind_eq_ok, true_and]
  refine exists_congr fun width => exists_congr fun r₁ => and_congr_right fun _ =>
    exists_congr fun precision => exists_congr fun r₂ => and_congr_right fun _ => ?_
  by_cases hkind : s.kind = .percent
  · simp only [hkind, ↓reduceIte]
    rw [report_bind_eq_ok, get_bind_eq_ok, attempt_bind_eq_ok]
  · simp only [hkind, ↓reduceIte]
    rw [bind_eq_ok]
    rfl

end Run

end UnitText
