import UnitText.Proofs.Run.Concatenation
import UnitText.Proofs.Run.Frame
import UnitText.Proofs.Template.Specifiers

/-!
# How values are consumed

The tokens of a template say how many values they consume, and a run that gives a result has
consumed the first so many, from left to right; values behind them make no difference. Where there
are fewer values, the run goes well up to the specifier that consumes the first value that is not
there, be it for a star or for a conversion, and fails there.

## Main statements

- `Progress.Step.with_pending` — values that are not consumed may be any others
- `Run.apply_eq_error_of_fewer` — a specifier that lacks a value
- `Run.Shows.forM_eq_error_of_fewer` — tokens that lack a value
- `Formatter.format_consumes` — formatting with all values, with more, and with fewer
-/

namespace UnitText

namespace Progress

/-- A token does the same in front of any other values that it does not consume. -/
theorem Step.with_pending {w : Width} {t : Token} {P Q : Progress} {vs : List Value}
    (h : Step w t P Q) (hvs : P.pending = vs ++ Q.pending) (us : List Value) :
    Step w t { P with pending := vs ++ us } { Q with pending := us } := by
  cases h with
  | literal cs offset =>
    obtain rfl : vs = [] := List.self_eq_append_left.1 hvs
    exact .literal cs offset _
  | specifier hpending hout hadds =>
    obtain rfl := List.append_cancel_right (hvs.symm.trans hpending)
    exact .specifier rfl hout hadds

end Progress

namespace Run

variable {w : Width} {s : Specifier} {r : Run}

/-- A width or a precision takes what it reads from the first of the values that are consumed, or
lacks it. -/
theorem resolve_of_fewer {role : StarRole} {c : Option Count} {vs us : List Value} {n : Option Int}
    (h : Count.Reads s role r.slots c vs n) (hgiven : r.pending <+: vs ++ us)
    (hlt : r.pending.length < (vs ++ us).length) :
    (∃ r', resolve s role c r =
      .error (.problem (.notEnoughArguments s (r.used + r.pending.length + 1))) r') ∨
    ∃ r', resolve s role c r = .ok n r' ∧ r.Advances [] r' ∧ r'.pending <+: us ∧
      r'.pending.length < us.length := by
  by_cases hshort : r.pending.length < vs.length
  · left
    -- at most one value is read, so none is left
    have hlength := h.length_eq
    have hstar : c = some .star := by
      by_contra hstar
      rw [if_neg hstar] at hlength
      omega
    rw [if_pos hstar] at hlength
    have hnil : r.pending = [] := List.eq_nil_of_length_eq_zero (by omega)
    rw [hnil]
    exact ⟨r, resolve_eq_error.2 ⟨hstar, .inl (nextArgument_eq_error.2 (.inl ⟨hnil, rfl, rfl⟩))⟩⟩
  · right
    obtain ⟨rest, hrest⟩ :=
      List.prefix_of_prefix_length_le (List.prefix_append vs us) hgiven (by omega)
    have hok := resolve_eq_ok.2 ⟨vs, rest, h, hrest.symm, rfl⟩
    rw [← hrest, List.prefix_append_right_inj] at hgiven
    rw [← hrest, List.length_append, List.length_append] at hlt
    exact ⟨_, hok, advances_of_resolve hok, hgiven, by simpa using hlt⟩

/-- A specifier fails that consumes more values than there are, and names the first of them. -/
theorem apply_eq_error_of_fewer {vs : List Value} {p : Piece} {new : Slots}
    (hphase : r.phase = .scanning) (h : s.Outputs w r.slots r.written vs p new)
    (hgiven : r.pending <+: vs) (hlt : r.pending.length < vs.length) :
    ∃ r', apply w s r =
      .error (.problem (.notEnoughArguments s (r.used + r.pending.length + 1))) r' := by
  cases h with
  | @percent vs us width precision _ hkind htakes hwidth hprecision =>
    rcases resolve_of_fewer hwidth hgiven hlt with
      ⟨r', hfails⟩ | ⟨r₁, hok, hadvances, hgiven₁, hlt₁⟩
    · exact ⟨r', (apply_eq_error hphase htakes).2 (.inl hfails)⟩
    rw [← List.append_nil us] at hgiven₁ hlt₁
    have hreads : Count.Reads s .precision r₁.slots s.precision us precision := by
      rwa [hadvances.slots]
    rcases resolve_of_fewer hreads hgiven₁ hlt₁ with ⟨r', hfails⟩ | ⟨_, -, -, -, hlt₂⟩
    · rw [hadvances.used_add_length] at hfails
      exact ⟨r', (apply_eq_error hphase htakes).2 (.inr ⟨width, r₁, hok, .inl hfails⟩)⟩
    · exact absurd hlt₂ (Nat.not_lt_zero _)
  | @value vs us v width precision _ _ hkind htakes hwidth hprecision =>
    rcases resolve_of_fewer hwidth hgiven hlt with
      ⟨r', hfails⟩ | ⟨r₁, hok, hadvances, hgiven₁, hlt₁⟩
    · exact ⟨r', (apply_eq_error hphase htakes).2 (.inl hfails)⟩
    have hreads : Count.Reads s .precision r₁.slots s.precision us precision := by
      rwa [hadvances.slots]
    rcases resolve_of_fewer hreads hgiven₁ hlt₁ with
      ⟨r', hfails⟩ | ⟨r₂, hok₂, hadvances₂, -, hlt₂⟩
    · rw [hadvances.used_add_length] at hfails
      exact ⟨r', (apply_eq_error hphase htakes).2 (.inr ⟨width, r₁, hok, .inl hfails⟩)⟩
    · -- the stars were read, so the value is the one that is not there
      have hnil : r₂.pending = [] := List.eq_nil_of_length_eq_zero (by simpa using hlt₂)
      have hused : r₂.used = r.used + r.pending.length := by
        have hused := (hadvances.trans hadvances₂).used_add_length
        rwa [hnil] at hused
      rw [← hused]
      refine ⟨r₂, (apply_eq_error hphase htakes).2
        (.inr ⟨width, r₁, hok, .inr ⟨precision, r₂, hok₂, ?_⟩⟩)⟩
      rw [if_neg hkind]
      exact .inl (nextArgument_eq_error.2 (.inl ⟨hnil, rfl, rfl⟩))

/-- Tokens that could go on with the values that they consume fail with fewer of them, at the
specifier that consumes the first value that is not there. -/
theorem Shows.forM_eq_error_of_fewer {ts : List Token} {P Q : Progress}
    (h : Progress.Steps w ts P Q) {A : List Value} (hr : r.Shows w { P with pending := A })
    (hA : A <+: P.pending) (hlt : A.length < argumentCount ts) :
    ∃ front s rest r', ts = front ++ .specifier s :: rest ∧ argumentCount front ≤ A.length ∧
      A.length < argumentCount front + s.argumentCount ∧ ts.forM (Run.step w) r =
        .error (.problem (.notEnoughArguments s (r.used + A.length + 1))) r' := by
  induction h generalizing A r with
  | nil => exact absurd hlt (Nat.not_lt_zero _)
  | @cons t ts P Q R hstep hsteps ih =>
    by_cases hshort : A.length < t.argumentCount
    · -- the first token lacks a value
      cases hstep with
      | literal => exact absurd hshort (Nat.not_lt_zero _)
      | @specifier s _ vs rest p cs new hpending hout hadds =>
        rw [Token.argumentCount, ← hout.length_eq] at hshort
        have hgiven : A <+: vs := List.prefix_of_prefix_length_le hA
          (by rw [hpending]; exact List.prefix_append _ _) (Nat.le_of_lt hshort)
        obtain rfl : r.pending = A := hr.pending
        obtain hslots : r.slots = P.slots := hr.slots
        obtain hwritten : r.written = w.length P.text := hr.written
        rw [← hslots, ← hwritten] at hout
        obtain ⟨r', hfails⟩ := apply_eq_error_of_fewer hr.phase hout hgiven hshort
        refine ⟨[], s, ts, r', rfl, Nat.zero_le _, ?_, forM_eq_error.2
          ⟨[], _, ts, r, rfl, rfl, hfails⟩⟩
        rw [argumentCount, Nat.zero_add, ← hout.length_eq]
        exact hshort
    · -- the first token has its values, and does with them what it did before
      obtain ⟨vs, hpending, hlength⟩ := hstep.exists_consumed
      rw [hpending] at hA
      obtain ⟨A', rfl⟩ := List.prefix_of_prefix_length_le (List.prefix_append vs Q.pending) hA
        (by omega)
      obtain ⟨r₁, hrun, hr₁⟩ := hr.exists_step (hstep.with_pending hpending A')
      rw [List.length_append, argumentCount] at hlt
      rw [List.prefix_append_right_inj] at hA
      obtain ⟨front, s, rest, r', rfl, hfront, hcount, hfails⟩ := ih hr₁ hA (by omega)
      have hused := (advances_of_step hrun).used_add_length
      rw [hr₁.pending, hr.pending, List.length_append] at hused
      simp only at hused
      refine ⟨.cons t front, s, rest, r', rfl, ?_, ?_, ?_⟩
      · rw [argumentCount, List.length_append]
        omega
      · rw [argumentCount, List.length_append]
        omega
      · rw [List.length_append, ← hused]
        exact (bind_of_ok hrun).trans hfails

end Run

namespace Formatter

variable {f : Formatter} {S : Slots} {A : List Value} {R : Text} {r : Run}

/-- A run that gives a result has consumed as many values as the tokens say. -/
theorem used_of_format (h : f.format S A = (.ok R, r)) :
    r.used = argumentCount (Scan.ofChars f.template).tokens ∧ r.used ≤ A.length := by
  obtain ⟨r₁, text, hrun, hjoin, -, rfl⟩ := format_eq_ok.1 h
  obtain ⟨P, hP, hr₁⟩ :=
    (Run.shows_initial f.width S A).steps (run_eq_ok.1 hrun).1 hjoin
  have hlength := hP.length_pending
  have hused := (advances_of_run hrun).used_add_length
  rw [hr₁.pending] at hused
  simp only at hlength hused
  have hfinish : r₁.finish.used = r₁.used := rfl
  omega

/-- **Values are consumed once, from left to right.** If formatting gives a result, then as many
values were consumed as the template has stars and conversions other than percent signs, and any
values behind them give the same result and the same stored counts. With the values that are
consumed, but not with all of them, formatting fails with the specifier that consumes the first
value that is not there: the failure tells the place of its percent sign, and the number of the
value. -/
theorem format_consumes (h : f.format S A = (.ok R, r)) :
    (argumentCount (Scan.ofChars f.template).tokens ≤ A.length ∧
      r.used = argumentCount (Scan.ofChars f.template).tokens ∧
      ∀ B, ∃ r', f.format S (A ++ B) = (.ok R, r') ∧ r'.slots = r.slots ∧
        f.counts S (A ++ B) = f.counts S A) ∧
    (A.length = argumentCount (Scan.ofChars f.template).tokens → ∀ C, C <+: A → C ≠ A →
      ∃ front s rest p, ∃ i : Nat,
        (Scan.ofChars f.template).tokens = front ++ .specifier s :: rest ∧
        argumentCount front ≤ C.length ∧ C.length < argumentCount front + s.argumentCount ∧
        s.offset = some (i : Int) ∧ f.template[i]? = some (CodePoint.ofChar '%') ∧
        (f.format S C).1 = .error (.problem p) ∧ p.report = {
          category := .missingArgument
          message := "Not enough arguments: " ++ s.text ++ " at offset " ++ s.place ++
            " needs argument #" ++ (C.length + 1).repr
          offset := some (i : Int) }) := by
  obtain ⟨P, hP, hscan, hR, hslots, -, hcounts⟩ := exists_steps_of_format h
  obtain ⟨hused, hle⟩ := used_of_format h
  refine ⟨⟨by omega, hused, fun B => ?_⟩, fun hA C hC hne => ?_⟩
  · obtain ⟨r', hr', hslots', hcounts'⟩ := exists_format (hP.extend B) hscan hR
    exact ⟨r', hr', by rw [hslots', hslots]; rfl, by rw [hcounts, hcounts']; rfl⟩
  · have hlt : C.length < A.length := by
      by_contra hge
      exact hne (hC.eq_of_length_le (by omega))
    obtain ⟨front, s, rest, r', htokens, hfront, hcount, hfails⟩ :=
      (Run.shows_initial f.width S C).forM_eq_error_of_fewer hP hC (by omega)
    have hs : .specifier s ∈ (Scan.ofChars f.template).tokens := by simp [htokens]
    obtain ⟨i, hi, hpercent⟩ := Scan.percent_of_mem hs
    refine ⟨front, s, rest, .notEnoughArguments s (C.length + 1), i, htokens, hfront, hcount, hi,
      hpercent, ?_, ?_⟩
    · have hrun : f.run { pending := C, slots := S } =
          .error (.problem (.notEnoughArguments s (C.length + 1))) r' := by
        rw [run_eq_error, hfails]
        simp
      simp only [format, execute, hrun]
      rfl
    · rw [← hi]
      rfl

/-- A star has its value, and the conversion lacks its own. -/
theorem format_consumes_star :
    ∃ p : Problem, ((ofChars (Chars.ofString "a%*d%s")).format [] [.integer 3]).1 =
      .error (.problem p) ∧ p.report = {
        category := .missingArgument
        message := "Not enough arguments: %*d at offset 1 needs argument #2"
        offset := some 1 } := by
  have h : (ofChars (Chars.ofString "a%*d%s")).format []
      [.integer 3, .integer 5, .ofChars (Chars.ofString "x")] =
        (.ok (.ofChars (Chars.ofString "a  5x")), _) := format_of_toOption (by decide +kernel)
  obtain ⟨-, hfewer⟩ := format_consumes h
  obtain ⟨front, s, rest, p, i, -, -, -, -, -, hp, -⟩ :=
    hfewer (by decide +kernel) [.integer 3] (by decide) (by decide)
  refine ⟨p, hp, ?_⟩
  have hcomputed : ((ofChars (Chars.ofString "a%*d%s")).format [] [.integer 3]).1 =
      .error (.problem (.notEnoughArguments
        { kind := .integer .signedD, width := some .star, offset := some 1 } 2)) := by
    decide +kernel
  cases hp.symm.trans hcomputed
  decide +kernel

end Formatter

end UnitText
