import UnitText.Proofs.Run.Failing
import UnitText.Proofs.Run.Simulation

/-!
# What tokens leave behind

A token consumes values from the front of those that are left, and stores in front of what was
stored before; else it only adds output. A token that fails has perhaps consumed values, but it has
stored nothing, because a count is stored only when nothing else can fail any more.

## Main definitions

- `Run.Advances` — a run that has consumed values of another one, and has stored counts
- `Token.stores`, `Run.stores` — what a token and several tokens store in a run
- `Token.Gives` — the piece of output that a token gives in a run

## Main statements

- `Run.exists_gives_of_step` — a token that succeeds
- `Run.advances_of_forM` — tokens that succeed
- `Run.forM_eq_error`, `Run.advances_of_forM_eq_error` — tokens that fail
-/

namespace UnitText

/-- What a token stores that succeeds in a run, by the value that it consumes last. -/
def Token.stores (r : Run) : Token → Slots
  | .literal _ _ => []
  | .specifier s =>
    match r.pending[s.argumentCount - 1]? with
    | some v =>
      match (v.refresh r.slots).adapt with
      | .ok a => s.kind.stores r.written a.value
      | .error _ => []
    | none => []

/-- The piece of output that a token gives in a run. -/
inductive Token.Gives (w : Width) (r : Run) : Token → Piece → Prop where
  | literal (cs : Chars) (offset : Nat) : Gives w r (.literal cs offset) (.chars cs)
  | percent {s : Specifier} {f : Field} {cs : Chars} (hspec : f.spec = s)
    (hwidth : f.charWidth = w) (h : f.percent = .ok cs) : Gives w r (.specifier s) (.chars cs)
  | value {s : Specifier} {f : Field} {v : Value} {a : Argument} {p : Piece} (hspec : f.spec = s)
    (hwidth : f.charWidth = w) (hv : v ∈ r.pending) (ha : (v.refresh r.slots).adapt = .ok a)
    (h : f.render a = .ok p) : Gives w r (.specifier s) p

namespace Run

/-- What tokens store in a run, up to the first token that fails. -/
def stores (w : Width) : List Token → Run → Slots
  | [], _ => []
  | t :: ts, r =>
    match step w t r with
    | .ok _ r' => stores w ts r' ++ t.stores r
    | .error _ _ => []

/-- The run `r'` has consumed values of the run `r`, and has stored `new`. -/
structure Advances (r : Run) (new : Slots) (r' : Run) : Prop where
  phase : r'.phase = r.phase
  consumes : ∃ vs, r.pending = vs ++ r'.pending ∧ r'.used = r.used + vs.length
  slots : r'.slots = new ++ r.slots

variable {w : Width} {s : Specifier} {t : Token} {ts : List Token} {r r₁ r₂ r' : Run} {e : Failure}

namespace Advances

variable {new new' : Slots}

theorem refl (r : Run) : r.Advances [] r := ⟨rfl, ⟨[], rfl, rfl⟩, rfl⟩

theorem trans (h : r.Advances new r₁) (h' : r₁.Advances new' r₂) : r.Advances (new' ++ new) r₂ := by
  obtain ⟨vs, hvs, hused⟩ := h.consumes
  obtain ⟨us, hus, hused'⟩ := h'.consumes
  refine ⟨h'.phase.trans h.phase, ⟨vs ++ us, ?_, ?_⟩, ?_⟩
  · rw [hvs, hus, List.append_assoc]
  · rw [hused', hused, List.length_append, Nat.add_assoc]
  · rw [h'.slots, h.slots, List.append_assoc]

theorem used_le (h : r.Advances new r') : r.used ≤ r'.used := by
  obtain ⟨vs, -, hused⟩ := h.consumes
  omega

/-- Every value is consumed or left. -/
theorem used_add_length (h : r.Advances new r') :
    r'.used + r'.pending.length = r.used + r.pending.length := by
  obtain ⟨vs, hpending, hused⟩ := h.consumes
  rw [hpending, List.length_append]
  omega

theorem pending_suffix (h : r.Advances new r') : r'.pending <:+ r.pending := by
  obtain ⟨vs, hpending, -⟩ := h.consumes
  exact ⟨vs, hpending.symm⟩

end Advances

/-! ## Actions that succeed -/

theorem advances_of_nextArgument {a : Argument} (h : nextArgument s r = .ok a r') :
    r.Advances [] r' := by
  obtain ⟨v, rest, hpending, -, rfl⟩ := nextArgument_eq_ok.1 h
  exact ⟨rfl, ⟨[v], hpending, rfl⟩, rfl⟩

theorem advances_of_resolve {role : StarRole} {c : Option Count} {n : Option Int}
    (h : resolve s role c r = .ok n r') : r.Advances [] r' := by
  obtain ⟨vs, rest, -, hpending, rfl⟩ := resolve_eq_ok.1 h
  exact ⟨rfl, ⟨vs, hpending, rfl⟩, rfl⟩

theorem advances_of_emit {p : Piece} (h : emit w p r = .ok () r') : r.Advances [] r' := by
  rcases emit_eq_ok_iff.1 h with ⟨-, rfl⟩ | ⟨n, -, -, rfl⟩
  · exact .refl _
  · exact ⟨rfl, ⟨[], rfl, rfl⟩, rfl⟩

/-- A token that succeeds consumes its values and stores what it has to store; last of all, it adds
the piece of output that it gives. -/
theorem exists_gives_of_step (h : step w t r = .ok () r') :
    ∃ p r₁, t.Gives w r p ∧ emit w p r₁ = .ok () r' ∧ r.Advances (t.stores r) r₁ ∧
      r₁.pieces = r.pieces ∧ r₁.written = r.written := by
  cases t with
  | literal cs offset => exact ⟨_, r, .literal cs offset, h, .refl r, rfl, rfl⟩
  | specifier s =>
    obtain ⟨-, -, width, r₁, hwidth, precision, r₂, hprecision, h⟩ := apply_eq_ok.1 h
    obtain ⟨vs, rest₁, hvs, hpending₁, rfl⟩ := resolve_eq_ok.1 hwidth
    obtain ⟨us, rest₂, hus, hpending₂, rfl⟩ := resolve_eq_ok.1 hprecision
    have hadvances := (advances_of_resolve hwidth).trans (advances_of_resolve hprecision)
    split at h
    · next hkind =>
      obtain ⟨cs, hcs, h⟩ := h
      have hstores : Token.stores r (.specifier s) = [] := by
        unfold Token.stores
        simp only [hkind, Kind.stores]
        split
        · split <;> rfl
        · rfl
      rw [hstores]
      exact ⟨_, _, .percent rfl rfl hcs, h,
        ⟨hadvances.phase, hadvances.consumes, hadvances.slots⟩, rfl, rfl⟩
    · next hkind =>
      obtain ⟨a, r₃, ha, hconvert⟩ := h
      obtain ⟨v, rest, hpending₃, hadapt, rfl⟩ := nextArgument_eq_ok.1 ha
      obtain ⟨p, hp⟩ := render_eq_ok_of_convert hconvert
      obtain ⟨events, hemit⟩ := convert_eq_emit hp
      rw [hemit] at hconvert
      have hadvances := hadvances.trans (advances_of_nextArgument ha)
      -- the value is the last one that the specifier counts
      have hpending : r.pending = (vs ++ us) ++ v :: rest := by
        rw [hpending₁, List.append_assoc]
        exact congrArg (vs ++ ·) (hpending₂.trans (congrArg (us ++ ·) hpending₃))
      have hlength : (vs ++ us).length = s.argumentCount - 1 := by
        simp [hvs.length_eq, hus.length_eq, Specifier.argumentCount, hkind]
      have hvalue : r.pending[s.argumentCount - 1]? = some v := by
        rw [hpending, ← hlength]
        simp
      have hstores : Token.stores r (.specifier s) = s.kind.stores r.written a.value := by
        unfold Token.stores
        simp only at hadapt
        simp only [hvalue, hadapt]
      rw [hstores]
      have hv : v ∈ r.pending := by simp [hpending]
      exact ⟨p, _, .value rfl rfl hv hadapt hp, hconvert,
        ⟨hadvances.phase, hadvances.consumes, rfl⟩, rfl, rfl⟩

theorem advances_of_step (h : step w t r = .ok () r') : r.Advances (t.stores r) r' := by
  obtain ⟨p, r₁, -, hemit, hadvances, -⟩ := exists_gives_of_step h
  exact hadvances.trans (advances_of_emit hemit)

/-- A token keeps the output, and adds its piece unless that is empty. -/
theorem exists_pieces_of_step (h : step w t r = .ok () r') :
    ∃ p, t.Gives w r p ∧ (r'.pieces = r.pieces ∨ r'.pieces = p :: r.pieces) := by
  obtain ⟨p, r₁, hgives, hemit, -, hpieces, -⟩ := exists_gives_of_step h
  refine ⟨p, hgives, ?_⟩
  rw [← hpieces]
  rcases emit_eq_ok_iff.1 hemit with ⟨-, rfl⟩ | ⟨n, -, -, rfl⟩
  · exact .inl rfl
  · exact .inr rfl

theorem advances_of_forM (h : ts.forM (step w) r = .ok () r') :
    r.Advances (stores w ts r) r' := by
  induction ts generalizing r with
  | nil =>
    obtain ⟨-, rfl⟩ := Run.pure_eq_ok.1 h
    exact .refl r
  | cons t ts ih =>
    obtain ⟨_, r₁, hstep, hrest⟩ := bind_eq_ok.1 h
    rw [stores, hstep]
    exact (advances_of_step hstep).trans (ih hrest)

/-! ## Tokens that fail -/

theorem advances_of_nextArgument_eq_error (h : nextArgument s r = .error e r') :
    r.Advances [] r' := by
  rcases nextArgument_eq_error.1 h with ⟨-, -, rfl⟩ | ⟨v, rest, hpending, -, rfl⟩
  · exact .refl r
  · exact ⟨rfl, ⟨[v], hpending, rfl⟩, rfl⟩

theorem advances_of_resolve_eq_error {role : StarRole} {c : Option Count}
    (h : resolve s role c r = .error e r') : r.Advances [] r' := by
  obtain ⟨-, hnext | ⟨a, hnext, -⟩⟩ := resolve_eq_error.1 h
  · exact advances_of_nextArgument_eq_error hnext
  · exact advances_of_nextArgument hnext

/-- A token that fails has stored nothing. -/
theorem advances_of_step_eq_error (h : step w t r = .error e r') : r.Advances [] r' := by
  cases t with
  | literal cs offset =>
    obtain ⟨-, v, hv⟩ := emit_eq_error h
    cases hv
  | specifier s =>
    by_cases hphase : r.phase = .scanning
    case neg =>
      cases (apply_of_phase hphase).symm.trans h
      exact .refl r
    by_cases htakes : s.kind.takes s.length
    case neg =>
      cases (apply_of_length hphase htakes).symm.trans h
      exact .refl r
    rcases (apply_eq_error hphase htakes).1 h with
      hfails | ⟨width, r₁, hwidth, hfails | ⟨precision, r₂, hprecision, hfails⟩⟩
    · exact advances_of_resolve_eq_error hfails
    · exact (advances_of_resolve hwidth).trans (advances_of_resolve_eq_error hfails)
    have hadvances := (advances_of_resolve hwidth).trans (advances_of_resolve hprecision)
    split at hfails
    · obtain ⟨-, rfl⟩ := hfails
      exact ⟨hadvances.phase, hadvances.consumes, hadvances.slots⟩
    · rcases hfails with hfails | ⟨a, r₃, hnext, hconvert⟩
      · exact hadvances.trans (advances_of_nextArgument_eq_error hfails)
      · have hadvances := hadvances.trans (advances_of_nextArgument hnext)
        obtain ⟨⟨events, rfl⟩, -⟩ := of_convert_eq_error hconvert
        exact ⟨hadvances.phase, hadvances.consumes, hadvances.slots⟩

/-- Tokens fail at the first one that fails behind those before it. -/
theorem forM_eq_error :
    ts.forM (step w) r = .error e r' ↔ ∃ front t rest r₁, ts = front ++ t :: rest ∧
      front.forM (step w) r = .ok () r₁ ∧ step w t r₁ = .error e r' := by
  induction ts generalizing r with
  | nil => simp [Pure.pure, EStateM.pure]
  | cons t ts ih =>
    have hcons : (t :: ts).forM (step w) r = (step w t >>= fun _ => ts.forM (step w)) r := rfl
    rw [hcons, bind_eq_error]
    constructor
    · rintro (hfails | ⟨_, r₁, hstep, hrest⟩)
      · exact ⟨[], t, ts, r, rfl, rfl, hfails⟩
      · obtain ⟨front, t', rest, r₂, rfl, hfront, hfails⟩ := ih.1 hrest
        exact ⟨t :: front, t', rest, r₂, rfl, bind_eq_ok.2 ⟨(), r₁, hstep, hfront⟩, hfails⟩
    · rintro ⟨front, t', rest, r₂, hsplit, hfront, hfails⟩
      cases front with
      | nil =>
        obtain ⟨rfl, rfl⟩ := List.cons.inj hsplit
        obtain ⟨-, rfl⟩ := Run.pure_eq_ok.1 hfront
        exact .inl hfails
      | cons u front =>
        obtain ⟨rfl, rfl⟩ := List.cons.inj hsplit
        obtain ⟨_, r₁, hstep, hrest⟩ := bind_eq_ok.1 hfront
        exact .inr ⟨(), r₁, hstep, ih.2 ⟨front, t', rest, r₂, rfl, hrest, hfails⟩⟩

theorem stores_eq_of_forM_eq_error {front rest : List Token}
    (hfront : front.forM (step w) r = .ok () r₁) (hfails : step w t r₁ = .error e r') :
    stores w (front ++ t :: rest) r = stores w front r := by
  induction front generalizing r with
  | nil =>
    obtain ⟨-, rfl⟩ := Run.pure_eq_ok.1 hfront
    simp only [List.nil_append, stores, hfails]
  | cons u front ih =>
    obtain ⟨_, r₂, hstep, hrest⟩ := bind_eq_ok.1 hfront
    simp only [List.cons_append, stores, hstep, ih hrest]

theorem advances_of_forM_eq_error (h : ts.forM (step w) r = .error e r') :
    r.Advances (stores w ts r) r' := by
  obtain ⟨front, t, rest, r₁, rfl, hfront, hfails⟩ := forM_eq_error.1 h
  rw [stores_eq_of_forM_eq_error hfront hfails]
  exact (advances_of_forM hfront).trans (advances_of_step_eq_error hfails)

end Run

namespace Formatter

variable {f : Formatter} {r r' : Run} {e : Failure} {cs : Chars}

/-- A run fails with a token, or where the scan of the template ended early. -/
theorem run_eq_error : f.run r = .error e r' ↔
    (Scan.ofChars f.template).tokens.forM (Run.step f.width) r = .error e r' ∨
      (Scan.ofChars f.template).tokens.forM (Run.step f.width) r = .ok () r' ∧
        (Scan.ofChars f.template).failure = some e := by
  rw [run, Run.bind_eq_error]
  refine or_congr_right ?_
  cases hfailure : (Scan.ofChars f.template).failure with
  | none =>
    constructor
    · rintro ⟨_, _, _, h⟩
      cases h
    · rintro ⟨-, h⟩
      cases h
  | some e' =>
    simp only [Run.throw_eq_error, Option.some.injEq]
    constructor
    · rintro ⟨_, r₁, h, rfl, rfl⟩
      exact ⟨h, rfl⟩
    · rintro ⟨h, rfl⟩
      exact ⟨(), r', h, rfl, rfl⟩

theorem execute_eq_ok : f.execute r = (.ok cs, r') ↔ ∃ r₁, f.run r = .ok () r₁ ∧
    Piece.join r₁.output = .ok cs ∧ r' = r₁.finish := by
  rw [execute]
  cases f.run r with
  | error e r₁ => simp
  | ok u r₁ => simp [eq_comm]

/-- Executing a run fails with the run, or because the output cannot be joined. -/
theorem execute_eq_error : f.execute r = (.error e, r') ↔
    (∃ r₁, f.run r = .error e r₁ ∧ r' = r₁.fail) ∨
      ∃ r₁, f.run r = .ok () r₁ ∧ Piece.join r₁.output = .error e ∧ r' = r₁.finish := by
  rw [execute]
  cases f.run r with
  | error e' r₁ =>
    constructor
    · rintro ⟨⟩
      exact .inl ⟨r₁, rfl, rfl⟩
    · rintro (⟨_, ⟨⟩, rfl⟩ | ⟨_, ⟨⟩, -⟩)
      rfl
  | ok u r₁ => simp [eq_comm]

theorem advances_of_run (h : f.run r = .ok () r') :
    r.Advances (Run.stores f.width (Scan.ofChars f.template).tokens r) r' :=
  Run.advances_of_forM (run_eq_ok.1 h).1

theorem advances_of_run_eq_error (h : f.run r = .error e r') :
    r.Advances (Run.stores f.width (Scan.ofChars f.template).tokens r) r' := by
  rcases run_eq_error.1 h with hfails | ⟨hforM, -⟩
  · exact Run.advances_of_forM_eq_error hfails
  · exact Run.advances_of_forM hforM

/-- Executing a run consumes values, and loses none. -/
theorem used_execute (f : Formatter) (r : Run) : r.used ≤ (f.execute r).2.used ∧
    (f.execute r).2.used + (f.execute r).2.pending.length = r.used + r.pending.length := by
  rw [execute]
  cases hrun : f.run r with
  | error e r₁ =>
    have h := advances_of_run_eq_error hrun
    exact ⟨h.used_le, h.used_add_length⟩
  | ok u r₁ =>
    have h := advances_of_run hrun
    exact ⟨h.used_le, h.used_add_length⟩

end Formatter

end UnitText
