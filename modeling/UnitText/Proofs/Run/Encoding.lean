import UnitText.Proofs.Format.Failures
import UnitText.Proofs.Run.Counting
import UnitText.Proofs.Run.Frame

/-!
# Encoding the output

Whatever a run gives can be encoded in the container of its template, however often it is executed:
literal text was decoded from the template, and conversions write what fits it. A text that does not
fit is refused by the conversion that was to write it.

## Main definitions

- `Run.FaultFree` — an action does not fail because an encoding lacks characters
- `Run.Holds` — the output of a run so far fits the template
- `Formatter.IsRun` — the runs of a formatter
- `Formatter.ComesTo`, `Specifier.Writes` — the argument that a specifier is applied to, and the
  text that it is about to write of it

## Main statements

- `Run.faultFree_step`, `Run.Holds.step` — what a token keeps
- `Formatter.encodes_always` — the output of runs is encoded, and what does not fit is refused
-/

namespace UnitText

namespace Run

variable {α β : Type} {w : Width} {s : Specifier} {r r' : Run}

/-! ## Actions that fail -/

/-- An action does not fail because an encoding lacks characters. -/
def FaultFree (x : RunM α) (r : Run) : Prop := ∀ fault r', x r ≠ .error (.encoding fault) r'

theorem FaultFree.bind {x : RunM α} {f : α → RunM β} (hx : FaultFree x r)
    (hf : ∀ a r₁, x r = .ok a r₁ → FaultFree (f a) r₁) : FaultFree (x >>= f) r := by
  intro fault r'
  cases hr : x r with
  | ok a r₁ =>
    rw [bind_of_ok hr]
    exact hf a r₁ hr fault r'
  | error e r₁ =>
    rw [bind_of_error hr]
    rintro ⟨⟩
    exact hx fault r' hr

theorem faultFree_pure (a : α) : FaultFree (pure a) r := nofun

theorem faultFree_throw {e : Failure} (h : ∀ fault, e ≠ .encoding fault) :
    FaultFree (throw e : RunM α) r := by
  intro fault r' hr
  obtain ⟨he, -⟩ := EStateM.Result.error.inj hr
  exact h fault he

theorem faultFree_attempt {x : Except Failure α} (h : UnitText.FaultFree x) :
    FaultFree (attempt x) r := by
  cases x with
  | ok a => exact faultFree_pure a
  | error e => exact faultFree_throw (faultFree_error.1 h)

theorem faultFree_get : FaultFree (get : RunM Run) r := nofun

theorem faultFree_modify (f : Run → Run) : FaultFree (modify f : RunM PUnit) r := nofun

theorem faultFree_emit {p : Piece} (hp : p.IsProper) : FaultFree (emit w p) r := by
  refine (faultFree_attempt p.faultFree_isEmpty).bind fun empty r₁ _ => ?_
  split
  · refine (faultFree_attempt (hp.faultFree_length w)).bind fun n r₂ _ => ?_
    exact faultFree_modify _
  · exact faultFree_pure _

theorem faultFree_nextArgument : FaultFree (nextArgument s) r := by
  have hnext : FaultFree (next s) r := by
    refine faultFree_get.bind fun r₁ r₂ _ => ?_
    split
    · exact faultFree_throw nofun
    · exact FaultFree.bind (x := set _) nofun fun _ _ _ => faultFree_pure _
  refine hnext.bind fun v r₁ _ => faultFree_get.bind fun r₂ r₃ _ => ?_
  exact faultFree_attempt (Value.faultFree_adapt _)

theorem faultFree_resolve (role : StarRole) (c : Option Count) :
    FaultFree (resolve s role c) r := by
  unfold resolve
  split
  · exact faultFree_pure _
  · exact faultFree_pure _
  · refine faultFree_nextArgument.bind fun a r₁ _ => ?_
    exact (faultFree_attempt (a.faultFree_starValue s role)).bind fun _ _ _ => faultFree_pure _

theorem faultFree_convert (f : Field) (a : Argument) : FaultFree (convert f a) r := by
  intro fault r'
  cases hrender : f.render a with
  | ok p =>
    obtain ⟨events, hemit⟩ := convert_eq_emit (r := r) hrender
    rw [hemit]
    exact faultFree_emit (f.isProper_of_render hrender) fault r'
  | error e =>
    obtain ⟨r₁, hr₁⟩ := convert_eq_error (r := r) hrender
    rw [hr₁]
    rintro ⟨⟩
    exact f.faultFree_render a fault hrender

theorem faultFree_apply : FaultFree (apply w s) r := by
  intro fault r'
  by_cases hphase : r.phase = .scanning
  case neg =>
    rw [apply_of_phase hphase]
    exact nofun
  by_cases htakes : s.kind.takes s.length
  case neg =>
    rw [apply_of_length hphase htakes]
    exact nofun
  rw [apply_eq hphase htakes]
  refine FaultFree.bind (faultFree_resolve _ _) (fun width r₁ _ => ?_) fault r'
  refine (faultFree_resolve _ _).bind fun precision r₂ _ => ?_
  split
  · refine (faultFree_modify _).bind fun _ r₃ _ => faultFree_get.bind fun r₄ r₅ _ => ?_
    refine (faultFree_attempt (Field.faultFree_padText _ _)).bind fun cs r₆ _ => ?_
    exact faultFree_emit trivial
  · refine faultFree_nextArgument.bind fun a r₃ _ => faultFree_get.bind fun r₄ r₅ _ => ?_
    exact faultFree_convert _ a

theorem faultFree_step (t : Token) : FaultFree (step w t) r := by
  cases t with
  | literal cs offset => exact faultFree_emit trivial
  | specifier s => exact faultFree_apply

theorem faultFree_forM (ts : List Token) : FaultFree (ts.forM (step w)) r := by
  induction ts generalizing r with
  | nil => exact faultFree_pure _
  | cons t ts ih => exact (faultFree_step t).bind fun _ _ _ => ih

/-! ## Output that fits -/

/-- The output of a run so far fits text of a width, as far as it is made of characters. -/
def Holds (w : Width) (r : Run) : Prop := ∀ cs, Piece.chars cs ∈ r.pieces → ∀ c ∈ cs, w.Holds c

/-- The characters that a token gives fit if it does. -/
theorem holds_of_gives {t : Token} {cs : Chars} (h : t.Gives w r (.chars cs)) (ht : t.Holds w) :
    ∀ c ∈ cs, w.Holds c := by
  cases h with
  | literal => exact ht
  | percent _ hwidth h =>
    rw [← hwidth]
    exact Field.fits_percent cs h
  | value _ hwidth _ _ h =>
    rw [← hwidth]
    exact Field.holds_of_render h

/-- A token that fits keeps the output fitting. -/
theorem Holds.step {t : Token} (hr : r.Holds w) (ht : t.Holds w) (h : Run.step w t r = .ok () r') :
    r'.Holds w := by
  obtain ⟨p, hgives, hpieces | hpieces⟩ := exists_pieces_of_step h
  · intro cs hcs
    rw [hpieces] at hcs
    exact hr cs hcs
  · intro cs hcs
    rw [hpieces] at hcs
    rcases List.mem_cons.1 hcs with rfl | hcs
    · exact holds_of_gives hgives ht
    · exact hr cs hcs

theorem Holds.forM {ts : List Token} (hr : r.Holds w) (hts : ∀ t ∈ ts, t.Holds w)
    (h : ts.forM (Run.step w) r = .ok () r') : r'.Holds w := by
  induction ts generalizing r with
  | nil =>
    obtain ⟨-, rfl⟩ := Run.pure_eq_ok.1 h
    exact hr
  | cons t ts ih =>
    obtain ⟨ht, hts⟩ := List.forall_mem_cons.1 hts
    obtain ⟨_, r₁, hstep, hrest⟩ := bind_eq_ok.1 h
    exact ih (hr.step ht hstep) hts hrest

end Run

/-! ## Runs of a formatter -/

theorem Piece.mem_of_joinFrom {n : Nat} {ps : List Piece} {cs : Chars} (h : joinFrom n ps = .ok cs)
    {c : CodePoint} (hc : c ∈ cs) : ∃ ds, chars ds ∈ ps ∧ c ∈ ds := by
  induction ps generalizing n cs with
  | nil =>
    obtain rfl := Except.ok.inj h
    cases hc
  | cons p ps ih =>
    cases p with
    | value v => cases h
    | chars ds =>
      obtain ⟨es, hes, h⟩ := bind_eq_ok.1 h
      obtain rfl := pure_eq_ok.1 h
      rcases List.mem_append.1 hc with hc | hc
      · exact ⟨ds, List.mem_cons_self, hc⟩
      · obtain ⟨fs, hfs, hc⟩ := ih hes hc
        exact ⟨fs, List.mem_cons_of_mem _ hfs, hc⟩

/-- A scan ends early for the sake of the template only. -/
theorem ScansTo.failure_ne_encoding {offset : Nat} {cs : Chars} {scan : Scan}
    (h : ScansTo offset cs scan) (fault : EncodingFault) :
    scan.failure ≠ some (.encoding fault) := by
  have hcount : ∀ c : Option CountSource, FaultFree (SpecifierSource.toCount? c) := by
    intro c
    cases c with
    | none => exact faultFree_ok
    | some c =>
      refine FaultFree.bind ?_ fun _ _ => faultFree_pure
      cases c with
      | star => exact faultFree_ok
      | digits ds =>
        rw [CountSource.toCount]
        split <;> simp
  induction h with
  | nil =>
    intro h
    cases h
  | char _ _ ih | escape _ ih => rwa [Scan.failure_cons]
  | specifier _ _ _ _ ih => exact ih
  | @unreadable offset s body cs e hs hne hspec =>
    rintro ⟨⟩
    have hfree : FaultFree (s.toSpecifier offset) :=
      (hcount s.width).bind fun _ _ => (hcount s.precision).bind fun _ _ => faultFree_pure
    exact hfree fault hspec
  | malformed =>
    intro h
    cases h

namespace Formatter

variable {f : Formatter}

/-- The runs of a formatter: fresh ones, and those that were executed before. -/
inductive IsRun (f : Formatter) : Run → Prop where
  | fresh (slots : Slots) (values : List Value) : f.IsRun { pending := values, slots }
  | again {r : Run} (h : f.IsRun r) : f.IsRun (f.execute r).2

/-- A specifier is applied to an argument in the run of a formatter. -/
structure ComesTo (f : Formatter) (slots : Slots) (values : List Value) (s : Specifier)
    (a : Argument) : Prop where
  takes : s.kind.takes s.length
  /-- The tokens before the specifier succeed, and so do its stars, if it has any. -/
  reaches : ∃ front rest r r₁ r₂ r₃ width precision,
    (Scan.ofChars f.template).tokens = front ++ .specifier s :: rest ∧
    front.forM (Run.step f.width) { pending := values, slots } = .ok () r ∧
    Run.resolve s .width s.width r = .ok width r₁ ∧
    Run.resolve s .precision s.precision r₁ = .ok precision r₂ ∧
    Run.nextArgument s r₂ = .ok a r₃

/-- The output of every run fits the template, as far as it is made of characters. -/
theorem IsRun.holds {t : Text} (hf : create t = .ok f) {r : Run} (hr : f.IsRun r) :
    r.Holds f.width := by
  obtain ⟨hdecode, hcontainer⟩ := create_eq_ok.1 hf
  have htokens : ∀ u ∈ (Scan.ofChars f.template).tokens, u.Holds f.width := by
    refine (ScansTo.fromOffset 0 f.template).holds fun c hc => ?_
    rw [width, hcontainer]
    exact Text.holds_of_decode hdecode c hc
  induction hr with
  | fresh slots values =>
    intro cs hcs
    cases hcs
  | @again r _ ih =>
    rw [execute]
    cases hrun : f.run r with
    | error e r' =>
      intro cs hcs
      cases hcs
    | ok u r' =>
      have hr' : r'.Holds f.width := ih.forM htokens (run_eq_ok.1 hrun).1
      exact hr'

/-- Characters that a run gives fit the template. -/
theorem IsRun.holds_of_execute {t : Text} (hf : create t = .ok f) {r r' : Run} {cs : Chars}
    (hr : f.IsRun r) (h : f.execute r = (.ok cs, r')) : ∀ c ∈ cs, f.width.Holds c := by
  have hholds : r'.Holds f.width := by
    have hagain := (IsRun.again hr).holds hf
    rwa [h] at hagain
  obtain ⟨r₁, -, hjoin, rfl⟩ := execute_eq_ok.1 h
  intro c hc
  obtain ⟨ds, hds, hc⟩ := Piece.mem_of_joinFrom hjoin hc
  exact hholds ds (List.mem_reverse.1 hds) c hc

/-- So they can be encoded. -/
theorem IsRun.exists_encodeLike {t : Text} (hf : create t = .ok f) {r r' : Run} {cs : Chars}
    (hr : f.IsRun r) (h : f.execute r = (.ok cs, r')) :
    ∃ R, Text.encodeLike cs f.container = .ok R := by
  obtain ⟨R, hR, -⟩ := Text.encodeLike_eq_ok (hr.holds_of_execute hf h)
  exact ⟨R, hR⟩

theorem execute_ne_encoding (f : Formatter) (r : Run) (fault : EncodingFault) :
    (f.execute r).1 ≠ .error (.encoding fault) := by
  have hrun : Run.FaultFree f.run r := by
    refine (Run.faultFree_forM _).bind fun _ r₁ _ => ?_
    split
    · next e he =>
      refine Run.faultFree_throw fun fault h => ?_
      rw [h] at he
      exact (ScansTo.fromOffset 0 f.template).failure_ne_encoding fault he
    · exact Run.faultFree_pure _
  rw [execute]
  cases hr : f.run r with
  | ok u r' => exact Piece.faultFree_joinFrom _ _ fault
  | error e r' =>
    rintro ⟨⟩
    exact hrun fault r' hr

theorem format_ne_encoding {t : Text} (hf : create t = .ok f) (slots : Slots)
    (values : List Value) (fault : EncodingFault) :
    (f.format slots values).1 ≠ .error (.encoding fault) := by
  rw [format]
  cases hexecute : f.execute { pending := values, slots } with
  | mk result r' =>
    cases result with
    | ok cs =>
      obtain ⟨R, hR⟩ := (IsRun.fresh slots values).exists_encodeLike hf hexecute
      have hformat : (Except.ok cs >>= (Text.encodeLike · f.container)) = .ok R := hR
      simp only [hformat]
      intro h
      cases h
    | error e =>
      have hne := f.execute_ne_encoding { pending := values, slots } fault
      rw [hexecute] at hne
      intro h
      cases h
      exact hne rfl

/-- A token that fails makes formatting fail. -/
theorem format_eq_error_of_step {slots : Slots} {values : List Value} {front rest : List Token}
    {t : Token} {r r' : Run} {e : Failure}
    (htokens : (Scan.ofChars f.template).tokens = front ++ t :: rest)
    (hfront : front.forM (Run.step f.width) { pending := values, slots } = .ok () r)
    (hstep : Run.step f.width t r = .error e r') : (f.format slots values).1 = .error e := by
  have hrun : f.run { pending := values, slots } = .error e r' := by
    exact Run.bind_of_error (Run.forM_eq_error.2 ⟨front, _, rest, r, htokens, hfront, hstep⟩)
  simp only [format, execute, hrun]
  rfl

/-- A conversion that fails, whatever its field is, makes formatting fail. -/
theorem format_eq_error {slots : Slots} {values : List Value} {s : Specifier} {a : Argument}
    {P : Failure → Prop} (h : f.ComesTo slots values s a) (hkind : s.kind ≠ .percent)
    (ha : ∀ g : Field, g.spec = s → g.charWidth = f.width → ∃ e, P e ∧ g.render a = .error e) :
    ∃ e, P e ∧ (f.format slots values).1 = .error e := by
  obtain ⟨htakes, front, rest, r, r₁, r₂, r₃, width, precision, htokens, hfront, hwidth,
    hprecision, hnext⟩ := h
  obtain ⟨e, he, hrender⟩ := ha (.create s width precision f.width r₃.written) rfl rfl
  refine ⟨e, he, ?_⟩
  obtain ⟨r', hconvert⟩ := Run.convert_eq_error (r := r₃) hrender
  have hstep : Run.step f.width (.specifier s) r = .error e r' := by
    have hphase : r.phase = .scanning := (Run.advances_of_forM hfront).phase
    show Run.apply f.width s r = .error e r'
    rw [Run.apply_eq hphase htakes, Run.bind_of_ok hwidth, Run.bind_of_ok hprecision,
      if_neg hkind, Run.bind_of_ok hnext]
    exact hconvert
  exact format_eq_error_of_step htokens hfront hstep

end Formatter

end UnitText
