import UnitText.Proofs.Run.Encoding
import UnitText.Proofs.Run.Joining

/-!
# Runs that are executed again

A run may be executed any number of times. A run that has come to its end takes no specifier any
more, so a template with a specifier gives a result once at most. A template that is only literal
text gives a result every time, with more text. Values, counters and failures go on from where the
run was left.

## Main definitions

- `Formatter.runAfter`, `Formatter.result` — a run that is executed again and again, and its results
- `Formatter.IsLiteral` — a template without specifiers

## Main statements

- `Formatter.IsLiteral.execute` — what a literal template does to a run
- `Formatter.exists_result_eq_error` — no other template has a result later than the first
- `Formatter.execute_repeatedly` — the state machine of a run
-/

namespace UnitText

namespace Run

variable {w : Width} {ts : List Token} {r r' : Run}

/-- A run that has come to its end takes literal text only. -/
theorem isLiteral_of_forM (h : ts.forM (step w) r = .ok () r') (hphase : r.phase ≠ .scanning) :
    ∀ t ∈ ts, t.IsLiteral := by
  induction ts generalizing r with
  | nil => simp
  | cons t ts ih =>
    obtain ⟨_, r₁, hstep, hrest⟩ := bind_eq_ok.1 h
    refine List.forall_mem_cons.2 ⟨?_, ih hrest ?_⟩
    · cases t with
      | literal => trivial
      | specifier s => cases (apply_of_phase hphase).symm.trans hstep
    · rwa [(advances_of_step hstep).phase]

end Run

namespace Formatter

/-- A template without specifiers, which is scanned to its end. -/
structure IsLiteral (f : Formatter) : Prop where
  tokens : ∀ t ∈ (Scan.ofChars f.template).tokens, t.IsLiteral
  failure : (Scan.ofChars f.template).failure = none

/-- A fresh run after a number of executions. -/
def runAfter (f : Formatter) (slots : Slots) (values : List Value) : Nat → Run
  | 0 => { pending := values, slots }
  | n + 1 => (f.execute (f.runAfter slots values n)).2

/-- What a fresh run gives when it has been executed a number of times before. -/
def result (f : Formatter) (slots : Slots) (values : List Value) (n : Nat) : Except Failure Chars :=
  (f.execute (f.runAfter slots values n)).1

variable {f : Formatter} {slots : Slots} {values : List Value} {r r' : Run} {n : Nat}
  {cs text : Chars} {e : Failure}

theorem execute_runAfter (f : Formatter) (slots : Slots) (values : List Value) (n : Nat) :
    f.execute (f.runAfter slots values n) =
      (f.result slots values n, f.runAfter slots values (n + 1)) := rfl

theorem isRun_runAfter (f : Formatter) (slots : Slots) (values : List Value) (n : Nat) :
    f.IsRun (f.runAfter slots values n) := by
  induction n with
  | zero => exact .fresh slots values
  | succ n ih => exact .again ih

theorem phase_runAfter_succ (f : Formatter) (slots : Slots) (values : List Value) (n : Nat) :
    (f.runAfter slots values (n + 1)).phase ≠ .scanning := by
  rw [runAfter, execute]
  split
  all_goals
    intro h
    cases h

/-! ## Literal templates -/

theorem isLiteral_of_run (h : f.run r = .ok () r') (hphase : r.phase ≠ .scanning) :
    f.IsLiteral := by
  obtain ⟨hforM, hfailure⟩ := run_eq_ok.1 h
  exact ⟨Run.isLiteral_of_forM hforM hphase, hfailure⟩

/-- A literal template adds its text to output that can be joined, and counts it. -/
theorem IsLiteral.execute (hf : f.IsLiteral) (hjoin : Piece.join r.output = .ok text)
    (hwritten : r.written = f.width.length text) : ∃ cs r', f.execute r = (.ok cs, r') ∧
      Piece.join r'.output = .ok cs ∧ r'.written = f.width.length cs := by
  obtain ⟨r₁, cs, hforM, hjoin₁, hwritten₁⟩ :=
    Run.exists_forM_of_isLiteral (w := f.width) hf.tokens hjoin
  refine ⟨text ++ cs, r₁.finish, ?_, hjoin₁, ?_⟩
  · exact execute_eq_ok.2 ⟨r₁, run_eq_ok.2 ⟨hforM, hf.failure⟩, hjoin₁, rfl⟩
  · rw [Width.length_append, ← hwritten]
    exact hwritten₁

theorem IsLiteral.exists_result (hf : f.IsLiteral) (slots : Slots) (values : List Value) (n : Nat) :
    ∃ cs, f.result slots values n = .ok cs ∧
      Piece.join (f.runAfter slots values (n + 1)).output = .ok cs ∧
      (f.runAfter slots values (n + 1)).written = f.width.length cs := by
  induction n with
  | zero =>
    have hjoin : Piece.join (f.runAfter slots values 0).output = .ok [] := rfl
    obtain ⟨cs, r', h, hr'⟩ := hf.execute hjoin (by cases f.width <;> rfl)
    obtain ⟨hresult, rfl⟩ := Prod.mk.inj h
    exact ⟨cs, hresult, hr'⟩
  | succ n ih =>
    obtain ⟨text, -, hjoin, hwritten⟩ := ih
    obtain ⟨cs, r', h, hr'⟩ := hf.execute hjoin hwritten
    obtain ⟨hresult, rfl⟩ := Prod.mk.inj h
    exact ⟨cs, hresult, hr'⟩

/-! ## Results and failures -/

/-- What a run is after an execution: a result is its output, which was counted, and a failure has
given up the output. -/
def Settles (f : Formatter) (slots : Slots) (values : List Value) (n : Nat) : Prop :=
  match f.result slots values n with
  | .ok cs => (f.runAfter slots values (n + 1)).phase = .done ∧
      Piece.join (f.runAfter slots values (n + 1)).output = .ok cs ∧
      f.width.unitCount cs = .ok (f.runAfter slots values (n + 1)).written
  | .error _ => (f.runAfter slots values (n + 1)).phase = .failed ∧
      (f.runAfter slots values (n + 1)).output = []

theorem phase_of_result (h : f.result slots values n = .ok cs) :
    (f.runAfter slots values (n + 1)).phase = .done := by
  obtain ⟨r, -, -, hr⟩ := execute_eq_ok.1 ((execute_runAfter f slots values n).trans (by rw [h]))
  rw [hr]
  rfl

/-- A template that is not literal has no result later than the first. -/
theorem exists_result_eq_error (hf : ¬f.IsLiteral) (slots : Slots) (values : List Value) (n : Nat) :
    ∃ e, f.result slots values (n + 1) = .error e ∧ f.Settles slots values (n + 1) := by
  cases hrun : f.run (f.runAfter slots values (n + 1)) with
  | ok u r => exact absurd (isLiteral_of_run hrun (phase_runAfter_succ f slots values n)) hf
  | error e r =>
    have hexecute : f.execute (f.runAfter slots values (n + 1)) = (.error e, r.fail) :=
      execute_eq_error.2 (.inl ⟨r, hrun, rfl⟩)
    rw [execute_runAfter] at hexecute
    obtain ⟨hresult, hafter⟩ := Prod.mk.inj hexecute
    refine ⟨e, hresult, ?_⟩
    rw [Settles, hresult, hafter]
    exact ⟨rfl, rfl⟩

/-- A result is the output of the run, which was counted. -/
theorem counted_of_result (h : f.result slots values n = .ok cs) :
    Piece.join (f.runAfter slots values (n + 1)).output = .ok cs ∧
      (f.runAfter slots values (n + 1)).written = f.width.length cs := by
  by_cases hf : f.IsLiteral
  · obtain ⟨ds, hresult, houtput⟩ := hf.exists_result slots values n
    obtain rfl := Except.ok.inj (hresult.symm.trans h)
    exact houtput
  cases n with
  | succ n =>
    obtain ⟨e, hresult, -⟩ := exists_result_eq_error hf slots values n
    cases hresult.symm.trans h
  | zero =>
    obtain ⟨r, hrun, hjoin, hr⟩ :=
      execute_eq_ok.1 ((execute_runAfter f slots values 0).trans (by rw [h]))
    obtain ⟨P, -, hshows⟩ :=
      (Run.shows_initial f.width slots values).steps (run_eq_ok.1 hrun).1 hjoin
    obtain rfl := Except.ok.inj (hshows.output.symm.trans hjoin)
    rw [hr]
    exact ⟨hjoin, hshows.written⟩

theorem settles_of_result {t : Text} (hf : create t = .ok f)
    (h : f.result slots values n = .ok cs) : f.Settles slots values n := by
  obtain ⟨hjoin, hwritten⟩ := counted_of_result h
  have hholds := (isRun_runAfter f slots values n).holds_of_execute hf
    ((execute_runAfter f slots values n).trans (by rw [h]))
  rw [Settles, h, hwritten]
  exact ⟨phase_of_result h, hjoin, Width.unitCount_eq_ok hholds⟩

/-- A fresh run gives up its output when it fails, unless that is because it cannot be joined. -/
theorem settles_or_of_result_zero (h : f.result slots values 0 = .error e) :
    f.Settles slots values 0 ∨ (f.runAfter slots values 1).phase = .done ∧
      Piece.join (f.runAfter slots values 1).output = .error e ∧ ∃ v ∈ values, v.isFalseText := by
  rcases execute_eq_error.1 ((execute_runAfter f slots values 0).trans (by rw [h])) with
    ⟨r, -, hr⟩ | ⟨r, hrun, hjoin, hr⟩
  · left
    rw [Settles, h, hr]
    exact ⟨rfl, rfl⟩
  · right
    rw [hr]
    exact ⟨rfl, hjoin, isFalseText_of_run hrun hjoin⟩

theorem used_runAfter (f : Formatter) (slots : Slots) (values : List Value) (n : Nat) :
    (f.runAfter slots values n).used + (f.runAfter slots values n).pending.length =
      values.length := by
  induction n with
  | zero => exact Nat.zero_add _
  | succ n ih => rw [← ih, runAfter, (used_execute f _).2]

theorem used_runAfter_le {m : Nat} (h : m ≤ n) :
    (f.runAfter slots values m).used ≤ (f.runAfter slots values n).used := by
  induction h with
  | refl => exact Nat.le_refl _
  | step _ ih => exact Nat.le_trans ih (used_execute f _).1

/-- **A run may be executed any number of times.** A result is the output of the run, whose counter
is the number of its units; a failure gives up the output, unless the run had come to its end, with
output that cannot be joined for the sake of an argument that is no text, though it should be one.
Values are consumed once. Behind a failure there are only failures, and a template with a specifier,
or one that cannot be scanned to its end, gives a result once at most. -/
theorem execute_repeatedly {t : Text} (hf : create t = .ok f) (slots : Slots)
    (values : List Value) :
    (∀ n, f.Settles slots values n ∨ (f.runAfter slots values (n + 1)).phase = .done ∧
      ∃ e, f.result slots values n = .error e ∧
        Piece.join (f.runAfter slots values (n + 1)).output = .error e ∧
        ∃ v ∈ values, v.isFalseText) ∧
    (∀ m n, m ≤ n → (f.runAfter slots values m).used ≤ (f.runAfter slots values n).used ∧
      (f.runAfter slots values n).used ≤ values.length) ∧
    (∀ m n e, m < n → f.result slots values m = .error e →
      ∃ e', f.result slots values n = .error e') ∧
    ((∃ s, .specifier s ∈ (Scan.ofChars f.template).tokens) ∨
        (Scan.ofChars f.template).failure ≠ none →
      ∀ m n cs ds, f.result slots values m = .ok cs → f.result slots values n = .ok ds →
        m = n) := by
  refine ⟨fun n => ?_, fun m n hmn => ⟨used_runAfter_le hmn, ?_⟩, ?_, ?_⟩
  · cases hresult : f.result slots values n with
    | ok cs => exact .inl (settles_of_result hf hresult)
    | error e =>
      cases n with
      | zero =>
        refine (settles_or_of_result_zero hresult).imp_right ?_
        rintro ⟨hphase, hjoin, hfalse⟩
        exact ⟨hphase, e, rfl, hjoin, hfalse⟩
      | succ n =>
        -- a literal template has no failures
        have hliteral : ¬f.IsLiteral := by
          intro hf'
          obtain ⟨cs, hcs, -⟩ := hf'.exists_result slots values (n + 1)
          cases hcs.symm.trans hresult
        obtain ⟨e', -, hsettles⟩ := exists_result_eq_error hliteral slots values n
        exact .inl hsettles
  · have hused := used_runAfter f slots values n
    omega
  · intro m n e hmn hresult
    have hliteral : ¬f.IsLiteral := by
      intro hf'
      obtain ⟨cs, hcs, -⟩ := hf'.exists_result slots values m
      cases hcs.symm.trans hresult
    obtain ⟨k, rfl⟩ : ∃ k, n = k + 1 := ⟨n - 1, by omega⟩
    obtain ⟨e', he', -⟩ := exists_result_eq_error hliteral slots values k
    exact ⟨e', he'⟩
  · intro hspecifier
    have hliteral : ¬f.IsLiteral := by
      rintro ⟨htokens, hfailure⟩
      rcases hspecifier with ⟨s, hs⟩ | hscan
      · exact htokens _ hs
      · exact hscan hfailure
    have hzero : ∀ n cs, f.result slots values n = .ok cs → n = 0 := by
      rintro (_ | n) cs hresult
      · rfl
      · obtain ⟨e, he, -⟩ := exists_result_eq_error hliteral slots values n
        cases he.symm.trans hresult
    intro m n cs ds hm hn
    rw [hzero m cs hm, hzero n ds hn]

/-- The first execution gives a result, and so the second one fails. -/
theorem execute_repeatedly_twice :
    ∃ f, create (.ofChars (Chars.ofString "a%d")) = .ok f ∧
      f.result [] [.integer 5] 0 = .ok (Chars.ofString "a5") ∧
      ∃ e, f.result [] [.integer 5] 1 = .error e := by
  let f : Formatter := { container := .chars, template := Chars.ofString "a%d" }
  have hf : create (.ofChars (Chars.ofString "a%d")) = .ok f := by decide +kernel
  obtain ⟨-, -, -, honce⟩ := execute_repeatedly hf [] [.integer 5]
  have hzero : f.result [] [.integer 5] 0 = .ok (Chars.ofString "a5") := by decide +kernel
  refine ⟨f, hf, hzero, ?_⟩
  cases hone : f.result [] [.integer 5] 1 with
  | error e => exact ⟨e, rfl⟩
  | ok cs =>
    have hspecifier : ∃ s, .specifier s ∈ (Scan.ofChars f.template).tokens :=
      ⟨{ kind := .integer .signedD, offset := some 1 }, by decide +kernel⟩
    cases honce (.inl hspecifier) 0 1 _ cs hzero hone

/-- Bytes in the place of a string cannot be joined, and stay in the output of a run that has come
to its end. -/
theorem not_settles :
    ¬Settles { container := .chars, template := Chars.ofString "%s" } []
      [.argument .text (.text (Container.bytes.pack [97])) none true none] 0 := by
  have hresult : result { container := .chars, template := Chars.ofString "%s" } []
      [.argument .text (.text (Container.bytes.pack [97])) none true none] 0 =
        .error (.type (.notJoined 0 "bytes")) := by decide +kernel
  rw [Settles, hresult]
  decide +kernel

end Formatter

end UnitText
