import UnitText.Proofs.Run.Concatenation
import UnitText.Proofs.Run.Joining
import UnitText.Proofs.Template.Specifiers

/-!
# The first error wins

A template is scanned as far as it is needed. So where a specifier of a template fails, it fails in
the same way with anything written behind the template, be it well formed or not, and no count is
stored that was not stored before. Only output that cannot be joined is found too late for this: the
run has come to its end by then, and text behind the template can fail first.

## Main definitions

- `Formatter.FirstErrorWins` — what text behind a template should not change

## Main statements

- `Formatter.format_append_of_specifier` — a specifier that fails
- `Formatter.format_append_of_join` — output that cannot be joined
- `Formatter.format_append_eq_error` — formatting that fails
-/

namespace UnitText

/-- Tokens are literal text, or there is a last specifier among them. -/
theorem isLiteral_or_exists_last (ts : List Token) : (∀ t ∈ ts, t.IsLiteral) ∨
    ∃ front s rest, ts = front ++ .specifier s :: rest ∧ ∀ t ∈ rest, t.IsLiteral := by
  induction ts with
  | nil => exact .inl (by simp)
  | cons t ts ih =>
    rcases ih with hts | ⟨front, s, rest, rfl, hrest⟩
    · cases t with
      | literal => exact .inl (List.forall_mem_cons.2 ⟨trivial, hts⟩)
      | specifier s => exact .inr ⟨[], s, ts, rfl, hts⟩
    · exact .inr ⟨t :: front, s, rest, rfl, hrest⟩

/-- A specifier stands in a longer template where it stood before. -/
theorem Scan.exists_tokens_append {cs : Chars} {front rest : List Token} {s : Specifier}
    (h : (ofChars cs).tokens = front ++ .specifier s :: rest) (ds : Chars) :
    ∃ rest', (ofChars (cs ++ ds)).tokens = front ++ .specifier s :: rest' := by
  have hfront : front ++ [.specifier s] <+: (ofChars cs).tokens := ⟨rest, by simp [h]⟩
  obtain ⟨rest', hrest'⟩ := keeps_append cs ds front s hfront
  exact ⟨rest', by simp [← hrest']⟩

namespace Run

variable {w : Width} {front rest : List Token} {t : Token} {r r' : Run}

/-- Tokens around one of them are applied before it and behind it. -/
theorem forM_append_cons_eq_ok : (front ++ t :: rest).forM (step w) r = .ok () r' ↔
    ∃ r₁ r₂, front.forM (step w) r = .ok () r₁ ∧ step w t r₁ = .ok () r₂ ∧
      rest.forM (step w) r₂ = .ok () r' := by
  induction front generalizing r with
  | nil =>
    constructor
    · intro h
      obtain ⟨_, r₂, hstep, hrest⟩ := bind_eq_ok.1 h
      exact ⟨r, r₂, rfl, hstep, hrest⟩
    · rintro ⟨r₁, r₂, hfront, hstep, hrest⟩
      obtain ⟨-, rfl⟩ := Run.pure_eq_ok.1 hfront
      exact bind_eq_ok.2 ⟨(), r₂, hstep, hrest⟩
  | cons u front ih =>
    constructor
    · intro h
      obtain ⟨_, r₀, hu, h⟩ := bind_eq_ok.1 h
      obtain ⟨r₁, r₂, hfront, hstep, hrest⟩ := ih.1 h
      exact ⟨r₁, r₂, bind_eq_ok.2 ⟨(), r₀, hu, hfront⟩, hstep, hrest⟩
    · rintro ⟨r₁, r₂, hfront, hstep, hrest⟩
      obtain ⟨_, r₀, hu, hfront⟩ := bind_eq_ok.1 hfront
      exact bind_eq_ok.2 ⟨(), r₀, hu, ih.2 ⟨r₁, r₂, hfront, hstep, hrest⟩⟩

end Run

namespace Formatter

variable {T : Chars} {S : Slots} {A : List Value} {r : Run} {e : Failure}

/-- A specifier that fails in a template fails in the same way in a longer one. -/
theorem format_append_of_specifier {front rest : List Token} {s : Specifier} {r₁ r₂ : Run}
    (htokens : (Scan.ofChars T).tokens = front ++ .specifier s :: rest)
    (hfront : front.forM (Run.step .wide32) { pending := A, slots := S } = .ok () r₁)
    (hfails : Run.step .wide32 (.specifier s) r₁ = .error e r₂) (T' : Chars) :
    (ofChars (T ++ T')).format S A = (.error e, r₂.fail) := by
  obtain ⟨rest', htokens'⟩ := Scan.exists_tokens_append htokens T'
  refine format_ofChars_eq_error.2 (execute_eq_error.2 (.inl ⟨r₂, run_eq_error.2 (.inl ?_), rfl⟩))
  exact Run.forM_eq_error.2 ⟨front, _, rest', r₁, htokens', hfront, hfails⟩

/-- Output that cannot be joined cannot be joined behind a longer template either, but such a
template may fail before that is found. -/
theorem format_append_of_join (h : (ofChars T).run { pending := A, slots := S } = .ok () r)
    (hjoin : Piece.join r.output = .error e) (T' : Chars) :
    ∃ e' r', (ofChars (T ++ T')).format S A = (.error e', r') ∧ (r'.phase = .done → e' = e) := by
  have hforM := (run_eq_ok.1 h).1
  rcases isLiteral_or_exists_last (Scan.ofChars T).tokens with
    hliteral | ⟨front, s, rest, htokens, hrest⟩
  · have hempty := Run.join_eq_error_of_isLiteral hliteral hforM hjoin
    cases hempty
  -- up to the last specifier the two templates do the same, and literal text can be joined
  have hsplit : (Scan.ofChars T).tokens.forM (Run.step .wide32) { pending := A, slots := S } =
    .ok () r := hforM
  rw [htokens, Run.forM_append_cons_eq_ok] at hsplit
  obtain ⟨r₁, r₂, hfront, hstep, hliterals⟩ := hsplit
  have hjoin₂ := Run.join_eq_error_of_isLiteral hrest hliterals hjoin
  obtain ⟨rest', htokens'⟩ := Scan.exists_tokens_append htokens T'
  simp only [format_ofChars_eq_error, execute_eq_error]
  cases hrun : (ofChars (T ++ T')).run { pending := A, slots := S } with
  | error e' r₃ => exact ⟨e', _, .inl ⟨r₃, rfl, rfl⟩, nofun⟩
  | ok u r₃ =>
    have hforM' : (Scan.ofChars (T ++ T')).tokens.forM (Run.step .wide32)
      { pending := A, slots := S } = .ok () r₃ := (run_eq_ok.1 hrun).1
    rw [htokens', Run.forM_append_cons_eq_ok] at hforM'
    obtain ⟨r₁', r₂', hfront', hstep', hrest'⟩ := hforM'
    cases hfront.symm.trans hfront'
    cases hstep.symm.trans hstep'
    exact ⟨e, _, .inr ⟨r₃, rfl, Run.join_eq_error_of_forM hrest' hjoin₂, rfl⟩, fun _ => rfl⟩

/-- **The first error wins.** If formatting fails with a specifier of a template that can be scanned
to its end, then it fails in the same way with anything written behind the template, and leaves the
same run behind: slots hold what the count conversions before the specifier stored. Otherwise its
output cannot be joined for the sake of an argument that is no text, though it should be one; then
formatting with the longer template fails too, and in the same way if it gets as far. -/
theorem format_append_eq_error (hscan : (Scan.ofChars T).failure = none)
    (h : (ofChars T).format S A = (.error e, r)) (T' : Chars) :
    (r.phase = .failed ∧ (ofChars (T ++ T')).format S A = (.error e, r) ∧
      ∃ front s rest r₁ r₂, (Scan.ofChars T).tokens = front ++ .specifier s :: rest ∧
        front.forM (Run.step .wide32) { pending := A, slots := S } = .ok () r₁ ∧
        Run.step .wide32 (.specifier s) r₁ = .error e r₂ ∧
        r.slots = Run.stores .wide32 front { pending := A, slots := S } ++ S) ∨
    (r.phase = .done ∧ (∃ v ∈ A, v.isFalseText) ∧
      ∃ e' r', (ofChars (T ++ T')).format S A = (.error e', r') ∧
        (r'.phase = .done → e' = e)) := by
  rcases execute_eq_error.1 (format_ofChars_eq_error.1 h) with
    ⟨r₂, hrun, rfl⟩ | ⟨r₂, hrun, hjoin, rfl⟩
  · left
    rcases run_eq_error.1 hrun with hfails | ⟨-, hfailure⟩
    · obtain ⟨front, t, rest, r₁, htokens, hfront, hstep⟩ := Run.forM_eq_error.1 hfails
      cases t with
      | literal cs offset =>
        obtain ⟨-, v, hv⟩ := Run.emit_eq_error hstep
        cases hv
      | specifier s =>
        refine ⟨rfl, format_append_of_specifier htokens hfront hstep T', front, s, rest, r₁, r₂,
          htokens, hfront, hstep, ?_⟩
        have hadvances :=
          (Run.advances_of_forM hfront).trans (Run.advances_of_step_eq_error hstep)
        exact hadvances.slots
    · cases hscan.symm.trans hfailure
  · exact .inr ⟨rfl, isFalseText_of_run hrun hjoin, format_append_of_join hrun hjoin T'⟩

/-- A count is stored and then a text refused, whatever the percent sign behind them begins. -/
theorem format_append_eq_error_unfinished :
    ∃ e r, (ofChars (Chars.ofString "ab%n%d" ++ Chars.ofString "%")).format []
        [.slot "a" none, .ofChars (Chars.ofString "x")] = (.error e, r) ∧
      e = .problem (.cannotFormat { kind := .integer .signedD, offset := some 4 }
        "text argument" "'x'") ∧
      r.slots = [("a", 2)] := by
  let r := ((ofChars (Chars.ofString "ab%n%d")).format []
    [.slot "a" none, .ofChars (Chars.ofString "x")]).2
  have h : (ofChars (Chars.ofString "ab%n%d")).format []
      [.slot "a" none, .ofChars (Chars.ofString "x")] =
        (.error (.problem (.cannotFormat { kind := .integer .signedD, offset := some 4 }
          "text argument" "'x'")), r) := by decide +kernel
  rcases format_append_eq_error (by decide +kernel) h (Chars.ofString "%") with
    ⟨-, hlonger, -⟩ | ⟨hphase, -⟩
  · exact ⟨_, r, hlonger, rfl, by decide +kernel⟩
  · exact absurd hphase (by decide +kernel)

/-- Formatting that fails with a template fails in the same way with text behind it. -/
def FirstErrorWins (T T' : Chars) (A : List Value) : Prop :=
  ∀ e r, (Scan.ofChars T).failure = none → (ofChars T).format [] A = (.error e, r) →
    ∃ r', (ofChars (T ++ T')).format [] A = (.error e, r')

/-- Bytes in the place of a string are found when the output is joined, but the scan fails first. -/
theorem not_firstErrorWins : ¬FirstErrorWins (Chars.ofString "%s") (Chars.ofString "%")
    [.argument .text (.text (Container.bytes.pack [97])) none true none] := by
  intro h
  have hfirst : (ofChars (Chars.ofString "%s")).format []
      [.argument .text (.text (Container.bytes.pack [97])) none true none] =
        (.error (.type (.notJoined 0 "bytes")), _) := Prod.ext (by decide +kernel) rfl
  obtain ⟨r', hr'⟩ := h _ _ (by decide +kernel) hfirst
  have hlonger : ((ofChars (Chars.ofString "%s" ++ Chars.ofString "%")).format []
      [.argument .text (.text (Container.bytes.pack [97])) none true none]).1 =
        .error (.problem (.incompleteSpecifier 2)) := by decide +kernel
  rw [hr'] at hlonger
  cases hlonger

end Formatter

end UnitText
