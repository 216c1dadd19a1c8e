import UnitText.Format.Run

/-!
# What tokens do

What each token of a template does to the values that are left, to what was stored and to the output
so far, said without a machine: a run that is going well is nothing but such steps. Counts are kept
in the order in which they are stored, whatever they are stored in.

## Main definitions

- `Specifier.Outputs` — what a specifier consumes, adds to the output and stores
- `Progress` — the values left, the slots, the output and the counts so far
- `Progress.Step`, `Progress.Steps` — what a token does, and what several do
- `Run.counts`, `Formatter.counts` — the counts that a run stores

## Main statements

- `Progress.steps_append` — tokens in two parts do what the parts do, one after the other
- `Progress.Steps.extend` — values that are not consumed do not matter
- `Progress.Steps.length_pending` — how many values are consumed
-/

namespace UnitText

/-- The characters that a piece adds to output that can be joined. A value that is no string can be
left out of the output only if it is false. -/
inductive Piece.Adds : Piece → Chars → Prop where
  | chars (cs : Chars) : Adds (.chars cs) cs
  | value {v : Value} (h : v.isTrue = .ok false) : Adds (.value v) []

/-- The values that a width or a precision consumes, and the number that it is. -/
inductive Count.Reads (s : Specifier) (role : StarRole) (slots : Slots) :
    Option Count → List Value → Option Int → Prop where
  | none : Reads s role slots none [] none
  | number (n : Nat) : Reads s role slots (some (.number n)) [] (some n)
  | star {v : Value} {a : Argument} {n : Int} (ha : (v.refresh slots).adapt = .ok a)
    (hn : a.starValue s role = .ok n) : Reads s role slots (some .star) [v] (some n)

/-- What a conversion stores that is applied to a value behind a number of units. -/
def Kind.stores (k : Kind) (written : Nat) (v : Value) : Slots :=
  match k, v.place? with
  | .count, some name => [(name, written)]
  | _, _ => []

/-- The counts that a conversion stores behind a number of units, whatever it stores them in. -/
def Kind.counts (k : Kind) (written : Nat) : List Nat :=
  match k with
  | .count => [written]
  | _ => []

/-- The counts that a token stores behind a number of units. -/
def Token.counts (written : Nat) : Token → List Nat
  | .literal _ _ => []
  | .specifier s => s.kind.counts written

/-- The values that a specifier consumes behind a number of units, the piece of output that it adds,
and what it stores. -/
inductive Specifier.Outputs (w : Width) (s : Specifier) (slots : Slots) (written : Nat) :
    List Value → Piece → Slots → Prop where
  | percent {vs us : List Value} {width precision : Option Int} {cs : Chars}
    (hkind : s.kind = .percent) (hlength : s.kind.takes s.length)
    (hwidth : Count.Reads s .width slots s.width vs width)
    (hprecision : Count.Reads s .precision slots s.precision us precision)
    (h : (Field.create s width precision w written).percent = .ok cs) :
    Outputs w s slots written (vs ++ us) (.chars cs) []
  | value {vs us : List Value} {v : Value} {width precision : Option Int} {a : Argument} {p : Piece}
    (hkind : s.kind ≠ .percent) (hlength : s.kind.takes s.length)
    (hwidth : Count.Reads s .width slots s.width vs width)
    (hprecision : Count.Reads s .precision slots s.precision us precision)
    (ha : (v.refresh slots).adapt = .ok a)
    (h : (Field.create s width precision w written).render a = .ok p) :
    Outputs w s slots written (vs ++ (us ++ [v])) p (s.kind.stores written a.value)

/-- How far a run has come. -/
@[ext] structure Progress where
  pending : List Value
  slots : Slots
  text : Chars
  /-- The counts that were stored, in order. -/
  counts : List Nat := []

namespace Progress

/-- What a token does. -/
inductive Step (w : Width) : Token → Progress → Progress → Prop where
  | literal (cs : Chars) (offset : Nat) (P : Progress) :
    Step w (.literal cs offset) P { P with text := P.text ++ cs }
  | specifier {s : Specifier} {P : Progress} {vs rest : List Value} {p : Piece} {cs : Chars}
    {stores : Slots} (hpending : P.pending = vs ++ rest)
    (h : s.Outputs w P.slots (w.length P.text) vs p stores) (hadds : p.Adds cs) :
    Step w (.specifier s) P {
      pending := rest, slots := stores ++ P.slots, text := P.text ++ cs,
      counts := P.counts ++ s.kind.counts (w.length P.text) }

/-- What several tokens do, one after the other. -/
inductive Steps (w : Width) : List Token → Progress → Progress → Prop where
  | nil (P : Progress) : Steps w [] P P
  | cons {t : Token} {ts : List Token} {P Q R : Progress} (h : Step w t P Q)
    (hs : Steps w ts Q R) : Steps w (t :: ts) P R

variable {w : Width} {ts us : List Token} {P Q R : Progress}

theorem steps_nil_iff : Steps w [] P Q ↔ P = Q := by
  constructor
  · rintro ⟨⟩
    rfl
  · rintro rfl
    exact .nil P

theorem steps_cons_iff {t : Token} :
    Steps w (t :: ts) P R ↔ ∃ Q, Step w t P Q ∧ Steps w ts Q R := by
  constructor
  · rintro ⟨⟩
    exact ⟨_, ‹_›, ‹_›⟩
  · rintro ⟨Q, h, hs⟩
    exact .cons h hs

theorem steps_append : Steps w (ts ++ us) P R ↔ ∃ Q, Steps w ts P Q ∧ Steps w us Q R := by
  induction ts generalizing P with
  | nil => simp [steps_nil_iff]
  | cons t ts ih =>
    rw [List.cons_append, steps_cons_iff]
    constructor
    · rintro ⟨M, h, hs⟩
      obtain ⟨Q, hfirst, hsecond⟩ := ih.1 hs
      exact ⟨Q, .cons h hfirst, hsecond⟩
    · rintro ⟨Q, hfirst, hsecond⟩
      obtain ⟨M, h, hs⟩ := steps_cons_iff.1 hfirst
      exact ⟨M, h, ih.2 ⟨Q, hs, hsecond⟩⟩

/-- The progress with more values left. -/
def extend (P : Progress) (vs : List Value) : Progress := { P with pending := P.pending ++ vs }

theorem Step.extend {t : Token} (h : Step w t P Q) (vs : List Value) :
    Step w t (P.extend vs) (Q.extend vs) := by
  cases h with
  | literal cs offset P => exact .literal cs offset (P.extend vs)
  | specifier hpending hout hadds =>
    refine .specifier ?_ hout hadds
    simp [Progress.extend, hpending]

/-- Tokens do the same when there are more values than they consume. -/
theorem Steps.extend (h : Steps w ts P Q) (vs : List Value) :
    Steps w ts (P.extend vs) (Q.extend vs) := by
  induction h with
  | nil P => exact .nil _
  | cons h _ ih => exact .cons (h.extend vs) ih

theorem Step.text_prefix {t : Token} (h : Step w t P Q) : P.text <+: Q.text := by
  cases h with
  | literal => exact List.prefix_append _ _
  | specifier => exact List.prefix_append _ _

theorem Step.counts_eq {t : Token} (h : Step w t P Q) :
    Q.counts = P.counts ++ t.counts (w.length P.text) := by
  cases h with
  | literal => exact (List.append_nil _).symm
  | specifier => rfl

/-- Output is never taken back. -/
theorem Steps.text_prefix (h : Steps w ts P Q) : P.text <+: Q.text := by
  induction h with
  | nil => exact List.prefix_refl _
  | cons hstep _ ih => exact hstep.text_prefix.trans ih

theorem Step.slots_suffix {t : Token} (h : Step w t P Q) : P.slots <:+ Q.slots := by
  cases h with
  | literal => exact List.suffix_refl _
  | specifier => exact List.suffix_append _ _

/-- What was stored is never taken back. -/
theorem Steps.slots_suffix (h : Steps w ts P Q) : P.slots <:+ Q.slots := by
  induction h with
  | nil => exact List.suffix_refl _
  | cons hstep _ ih => exact hstep.slots_suffix.trans ih

theorem step_literal_iff {cs : Chars} {offset : Nat} :
    Step w (.literal cs offset) P Q ↔ Q = { P with text := P.text ++ cs } := by
  constructor
  · rintro ⟨⟩
    rfl
  · rintro rfl
    exact .literal cs offset P

end Progress

/-! ## How many values are consumed -/

def Token.argumentCount : Token → Nat
  | .literal _ _ => 0
  | .specifier s => s.argumentCount

/-- The number of values that tokens consume. -/
def argumentCount : List Token → Nat
  | [] => 0
  | t :: ts => t.argumentCount + argumentCount ts

theorem Count.Reads.length_eq {s : Specifier} {role : StarRole} {slots : Slots} {c : Option Count}
    {vs : List Value} {n : Option Int} (h : Count.Reads s role slots c vs n) :
    vs.length = if c = some .star then 1 else 0 := by
  cases h with
  | none => rfl
  | number => rfl
  | star => rfl

theorem Specifier.Outputs.length_eq {w : Width} {s : Specifier} {slots stores : Slots}
    {written : Nat} {vs : List Value} {p : Piece} (h : s.Outputs w slots written vs p stores) :
    vs.length = s.argumentCount := by
  cases h with
  | percent hkind _ hwidth hprecision _ =>
    simp [argumentCount, hkind, hwidth.length_eq, hprecision.length_eq]
  | value hkind _ hwidth hprecision _ _ =>
    simp [argumentCount, hkind, hwidth.length_eq, hprecision.length_eq, Nat.add_assoc]

namespace Progress

theorem Step.exists_consumed {w : Width} {t : Token} {P Q : Progress} (h : Step w t P Q) :
    ∃ vs, P.pending = vs ++ Q.pending ∧ vs.length = t.argumentCount := by
  cases h with
  | literal => exact ⟨[], rfl, rfl⟩
  | specifier hpending hout _ => exact ⟨_, hpending, hout.length_eq⟩

theorem Step.length_pending {w : Width} {t : Token} {P Q : Progress} (h : Step w t P Q) :
    P.pending.length = t.argumentCount + Q.pending.length := by
  obtain ⟨vs, hpending, hlength⟩ := h.exists_consumed
  rw [hpending, List.length_append, hlength]

/-- Tokens consume as many values as they say. -/
theorem Steps.length_pending {w : Width} {ts : List Token} {P Q : Progress} (h : Steps w ts P Q) :
    P.pending.length = argumentCount ts + Q.pending.length := by
  induction h with
  | nil => simp [argumentCount]
  | cons h _ ih => rw [h.length_pending, ih, argumentCount, Nat.add_assoc]

end Progress

/-! ## The counts of a run -/

/-- The counts that tokens store in a run, in order, up to the first token that fails. -/
def Run.counts (w : Width) : List Token → Run → List Nat
  | [], _ => []
  | t :: ts, r =>
    match step w t r with
    | .ok _ r' => t.counts r.written ++ counts w ts r'
    | .error _ _ => []

/-- The counts that are stored when values are formatted. -/
def Formatter.counts (f : Formatter) (slots : Slots) (values : List Value) : List Nat :=
  Run.counts f.width (Scan.ofChars f.template).tokens { pending := values, slots }

end UnitText
