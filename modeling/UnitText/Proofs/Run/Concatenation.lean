import UnitText.Proofs.Run.Readings
import UnitText.Proofs.Template.Append

/-!
# Templates one behind the other, formatted

Formatting with two templates, one behind the other, gives the two outputs, one behind the other.
The second template is formatted as it is by itself, only that its count conversions store numbers
that are larger by the length of the first output.

That is so if nothing that the second template reads makes the difference seen. A value does if it
shows a slot or a variable in which a count was stored on the way, or if it is a character of one
byte that has to hold a count.

## Main definitions

- `Reading.IsIndifferent` — a reading to which other output in front makes no difference
- `Progress.Follows` — progress that is the same, but behind other output

## Main statements

- `Progress.Steps.follows` — the same tokens lead from such progress to such progress
- `Formatter.format_append` — formatting with two templates
-/

namespace UnitText

/-- Stored counts that are larger by a number. -/
def Slots.shift (n : Nat) (slots : Slots) : Slots := slots.map fun e => (e.1, e.2 + n)

@[simp] theorem Slots.shift_append (n : Nat) (slots slots' : Slots) :
    shift n (slots ++ slots') = shift n slots ++ shift n slots' :=
  List.map_append

/-- Behind more output, a conversion stores a count that is larger by as much. -/
theorem Kind.counts_add (k : Kind) (written n : Nat) :
    k.counts (written + n) = (k.counts written).map (· + n) := by
  cases k with
  | count => rfl
  | _ => rfl

theorem Kind.stores_add (k : Kind) (written n : Nat) (v : Value) :
    k.stores (written + n) v = (k.stores written v).shift n := by
  cases k with
  | count => cases hplace : v.place? <;> simp [stores, hplace, Slots.shift]
  | _ => rfl

/-- It makes no difference to a reading that it is behind more output, by a number of units, and
that other counts were stored before. -/
def Reading.IsIndifferent (w : Width) (n : Nat) (base base' : Slots) (x : Reading) : Prop :=
  x.IsAlike (x.stores ++ base) (x.stores.shift n ++ base') (w.length x.text) (w.length x.text + n)

instance (w : Width) (n : Nat) (base base' : Slots) (x : Reading) :
    Decidable (x.IsIndifferent w n base base') :=
  inferInstanceAs (Decidable (x.IsAlike _ _ _ _))

/-! ## Specifiers further on -/

/-- A star reads the same in another place, if that makes no difference to its value. -/
theorem Count.Reads.move {s : Specifier} {role : StarRole} {slots slots' stores : Slots}
    {c : Option Count} {vs : List Value} {n : Option Int} {text : Chars} {count count' : Nat}
    (h : Count.Reads s role slots c vs n)
    (halike : ∀ u ∈ (Count.roles role c).zip vs,
      Reading.IsAlike ⟨s, u.1, u.2, text, stores⟩ slots slots' count count') (s' : Specifier) :
    Count.Reads s' role slots' c vs n := by
  cases h with
  | none => exact .none
  | number m => exact .number m
  | @star v a n ha hn =>
    obtain ⟨hfamily, hnumber⟩ := Argument.starValue_eq_ok.1 hn
    have ha' : (v.refresh slots').adapt = .ok a :=
      (halike (some role, v) List.mem_cons_self).adapt_eq (fun h => nomatch h.1) ha hfamily
    exact .star ha' (Argument.starValue_eq_ok.2 ⟨hfamily, hnumber⟩)

namespace Field

variable {f : Field} {a : Argument} {p : Piece}

theorem suits_of_render (hkind : f.spec.kind ≠ .percent) (h : f.render a = .ok p) :
    a.suits f.spec.kind = .ok true := by
  cases hcheck : a.check f.spec with
  | ok => exact Argument.check_eq_ok.1 hcheck
  | error e => cases (render_eq_error_of_check hkind hcheck).symm.trans h

/-- A conversion has the same output in another place, if that makes no difference to its value, and
it stores under the same name. -/
theorem exists_render_move {v : Value} {slots slots' stores : Slots} {text : Chars} {written : Nat}
    (hkind : f.spec.kind ≠ .percent) (ha : (v.refresh slots).adapt = .ok a)
    (h : f.render a = .ok p)
    (halike : Reading.IsAlike ⟨f.spec, none, v, text, stores⟩ slots slots' f.written written)
    (offset : Option Int) :
    ∃ b, (v.refresh slots').adapt = .ok b ∧ (f.move offset written).render b = .ok p ∧
      ∀ n, f.spec.kind.stores n b.value = f.spec.kind.stores n a.value := by
  have hsuits := suits_of_render hkind h
  by_cases hcount : f.spec.kind = .count
  · -- the value is another one, of the same kind, and takes the count
    obtain ⟨b, hb, hab⟩ := Value.exists_adapt_refresh slots slots' ha
    have hroom := (halike.room ⟨rfl, hcount⟩ ha hsuits).1
    rw [render, hcount] at h
    obtain ⟨-, hstore, rfl⟩ := of_count_eq_ok h hcount
    obtain ⟨u, hu⟩ := (hab.room written).2 (hroom hstore)
    have hmove : (f.move offset written).spec.kind = .count := hcount
    refine ⟨b, hb, ?_, fun n => by simp only [Kind.stores, hcount, hab.place]⟩
    rw [render, hmove]
    refine bind_eq_ok.2 ⟨(), Argument.check_eq_ok.2 ?_, bind_eq_ok.2 ⟨u, hu, rfl⟩⟩
    rw [hmove, hab.suits_eq, ← hcount]
    exact hsuits
  · have ha' : (v.refresh slots').adapt = .ok a :=
      halike.adapt_eq (fun h => hcount h.2) ha hsuits
    exact ⟨a, ha', render_move h fun h => absurd h hcount, fun _ => rfl⟩

end Field

/-- Behind more output, a specifier has the same output, if that makes no difference to what it
reads, and stores counts that are larger by as much. -/
theorem Specifier.Outputs.move {w : Width} {s : Specifier} {slots slots' new stores : Slots}
    {written n : Nat} {vs : List Value} {p : Piece} {text : Chars}
    (h : s.Outputs w slots written vs p new)
    (halike : ∀ u ∈ s.roles.zip vs,
      Reading.IsAlike ⟨s, u.1, u.2, text, stores⟩ slots slots' written (written + n)) (k : Nat) :
    (s.move k).Outputs w slots' (written + n) vs p (new.shift n) := by
  cases h with
  | percent hkind hlength hwidth hprecision h =>
    simp only [roles, Kind.roles, hkind, ↓reduceIte, List.append_nil] at halike
    rw [List.zip_append hwidth.length_roles, List.forall_mem_append] at halike
    exact .percent hkind hlength (hwidth.move halike.1 _) (hprecision.move halike.2 _) h
  | @value us us' v width precision a _ hkind hlength hwidth hprecision ha h =>
    rw [roles, Kind.roles, if_neg hkind, List.zip_append hwidth.length_roles,
      List.zip_append hprecision.length_roles, List.forall_mem_append,
      List.forall_mem_append] at halike
    obtain ⟨halike₁, halike₂, halike₃⟩ := halike
    obtain ⟨b, hb, hrender, hstores⟩ := Field.exists_render_move hkind ha h
      (halike₃ (none, v) List.mem_cons_self) (s.move k).offset
    have hout := Specifier.Outputs.value (s := s.move k) hkind hlength (hwidth.move halike₁ _)
      (hprecision.move halike₂ _) hb hrender
    have hshift : (s.move k).kind.stores (written + n) b.value =
        (s.kind.stores written a.value).shift n := by
      rw [← Kind.stores_add]
      exact hstores (written + n)
    rw [← hshift]
    exact hout

/-! ## Progress behind other output -/

namespace Progress

variable {w : Width} {R : Chars} {base base' stores : Slots} {ns : List Nat} {P P' Q : Progress}

/-- The progress `Q` is the progress `P` behind the output `R`: the same values are left, the output
is the same but for `R`, and the counts that were stored on the way, `stores`, are larger by the
length of `R`. Before, the counts `base` and `base'` had been stored, and of those in order `ns`
before those of `P`. -/
structure Follows (w : Width) (R : Chars) (base base' : Slots) (ns : List Nat) (stores : Slots)
    (P Q : Progress) : Prop where
  pending : Q.pending = P.pending
  text : Q.text = R ++ P.text
  slots : P.slots = stores ++ base
  slots' : Q.slots = stores.shift (w.length R) ++ base'
  counts : Q.counts = ns ++ P.counts.map (· + w.length R)

/-- A token further on leads from progress behind other output to such progress, if that makes no
difference to what it reads. -/
theorem Step.follows {t : Token} {r : Run} (h : Step w t P P')
    (hPQ : Follows w R base base' ns stores P Q) (hr : r.Shows w P)
    (halike : ∀ x ∈ t.readings stores r, x.IsIndifferent w (w.length R) base base') (k : Nat) :
    ∃ Q', Step w (t.move k) Q Q' ∧ Follows w R base base' ns (t.stores r ++ stores) P' Q' := by
  have hslots := hr.slots_eq h
  cases h with
  | literal cs offset =>
    refine ⟨_, .literal cs (offset + k) Q, hPQ.pending, ?_, hPQ.slots, hPQ.slots', hPQ.counts⟩
    rw [hPQ.text, List.append_assoc]
  | @specifier s _ vs rest p cs new hpending hout hadds =>
    obtain rfl : new = Token.stores r (.specifier s) := List.append_cancel_right hslots
    have hwritten : w.length Q.text = w.length P.text + w.length R := by
      rw [hPQ.text, Width.length_append, Nat.add_comm]
    rw [hr.readings_specifier hpending hout] at halike
    have halike' : ∀ u ∈ s.roles.zip vs, Reading.IsAlike ⟨s, u.1, u.2, P.text, stores⟩ P.slots
        Q.slots (w.length P.text) (w.length P.text + w.length R) := by
      intro u hu
      rw [hPQ.slots, hPQ.slots']
      exact halike _ (List.mem_map_of_mem hu)
    have hmoved := hout.move halike' k
    rw [← hwritten] at hmoved
    refine ⟨_, .specifier (hPQ.pending.trans hpending) hmoved hadds, rfl, ?_, ?_, ?_, ?_⟩
    · rw [hPQ.text, List.append_assoc]
    · rw [hPQ.slots, List.append_assoc]
    · rw [hPQ.slots', Slots.shift_append, List.append_assoc]
    · have hcounts : (s.move k).kind.counts (w.length Q.text) =
          (s.kind.counts (w.length P.text)).map (· + w.length R) := by
        rw [hwritten]
        exact s.kind.counts_add _ _
      rw [hPQ.counts, hcounts, List.map_append, List.append_assoc]

/-- Tokens further on lead from progress behind other output to such progress. -/
theorem Steps.follows {ts : List Token} {r : Run} (h : Steps w ts P P')
    (hPQ : Follows w R base base' ns stores P Q) (hr : r.Shows w P)
    (halike : ∀ x ∈ Run.readings w ts stores r, x.IsIndifferent w (w.length R) base base')
    (k : Nat) :
    ∃ stores' Q', Steps w (ts.map (Token.move k)) Q Q' ∧
      Follows w R base base' ns stores' P' Q' := by
  induction h generalizing Q r stores with
  | nil P => exact ⟨stores, Q, .nil Q, hPQ⟩
  | cons hstep hsteps ih =>
    obtain ⟨r', hrun, hr'⟩ := hr.exists_step hstep
    rw [Run.Shows.readings_cons hrun, List.forall_mem_append] at halike
    obtain ⟨N, hN, hMN⟩ := hstep.follows hPQ hr halike.1 k
    obtain ⟨stores', Q', hQ', hfollows⟩ := ih hMN hr' halike.2
    exact ⟨stores', Q', .cons hN hQ', hfollows⟩

/-- Literal text that meets literal text does as one token what the two do. -/
theorem steps_joinTokens {ts us : List Token} :
    Steps w (joinTokens ts us) P Q ↔ Steps w (ts ++ us) P Q := by
  induction ts generalizing P with
  | nil => rfl
  | cons t ts ih =>
    cases t with
    | specifier s => simp only [joinTokens, List.cons_append, steps_cons_iff, ih]
    | literal text offset =>
      simp only [List.cons_append, steps_cons_iff, step_literal_iff, exists_eq_left, ← ih]
      rw [joinTokens]
      split
      · next hjoin =>
        rw [hjoin]
        simp [steps_cons_iff, step_literal_iff]
      · simp [steps_cons_iff, step_literal_iff]

end Progress

theorem Text.eq_of_encodeLike_chars {cs ds : Chars}
    (h : encodeLike cs .chars = .ok (ofChars ds)) : cs = ds :=
  ofChars_inj.1 (Except.ok.inj h)

namespace Formatter

/-- The formatter for a template that is a string. -/
def ofChars (template : Chars) : Formatter where
  container := .chars
  template := template

theorem exists_steps_of_format_ofChars {T R : Chars} {S : Slots} {A : List Value} {r : Run}
    (h : (ofChars T).format S A = (.ok (.ofChars R), r)) :
    ∃ P, Progress.Steps .wide32 (Scan.ofChars T).tokens ⟨A, S, [], []⟩ P ∧
      (Scan.ofChars T).failure = none ∧ P.text = R ∧ P.slots = r.slots ∧
      P.counts = (ofChars T).counts S A := by
  obtain ⟨P, hP, hscan, hR, hslots, -, hcounts⟩ := exists_steps_of_format h
  exact ⟨P, hP, hscan, Text.eq_of_encodeLike_chars hR, hslots.symm, hcounts.symm⟩

/-- The output of a string template is always encoded. -/
theorem format_ofChars_eq_error {T : Chars} {S : Slots} {A : List Value} {r : Run} {e : Failure} :
    (ofChars T).format S A = (.error e, r) ↔
      (ofChars T).execute { pending := A, slots := S } = (.error e, r) := by
  rw [format]
  cases (ofChars T).execute { pending := A, slots := S } with
  | mk result r' =>
    cases result with
    | error e' =>
      constructor
      · rintro ⟨⟩
        rfl
      · rintro ⟨⟩
        rfl
    | ok cs =>
      constructor
      · rintro ⟨⟩
      · rintro ⟨⟩

/-- A string template gives a string. -/
theorem fst_format_ofChars (T : Chars) (S : Slots) (A : List Value) :
    ((ofChars T).format S A).1 =
      ((ofChars T).execute { pending := A, slots := S }).1.map Text.ofChars := by
  rw [format]
  cases (ofChars T).execute { pending := A, slots := S } with
  | mk result r => cases result <;> rfl

theorem exists_eq_ofChars_of_format {T : Chars} {S : Slots} {A : List Value} {t : Text}
    (h : ((ofChars T).format S A).1 = .ok t) : ∃ cs, t = .ofChars cs := by
  rw [fst_format_ofChars] at h
  cases hresult : ((ofChars T).execute { pending := A, slots := S }).1 with
  | error e =>
    rw [hresult] at h
    cases h
  | ok cs =>
    rw [hresult] at h
    exact ⟨cs, (Except.ok.inj h).symm⟩

/-- **Formatting with two templates, one behind the other.** If one template consumes all values of
a list, and another gives a result for a second list, then the two templates, one behind the other,
give for both lists the two results, one behind the other. The counts that are stored are those that
the first template stores, and then those that the second stores by itself, but larger by the length
of the first result; so are the contents of slots. This must make no difference to what the second
template reads: a value that its stars and conversions read is the same behind the first template,
and one that it stores a count in has room for the larger count. -/
theorem format_append {T₁ T₂ R₁ R₂ : Chars} {S₁ S₂ : Slots} {A₁ A₂ : List Value} {r₁ r₂ : Run}
    (h₁ : (ofChars T₁).format S₁ A₁ = (.ok (.ofChars R₁), r₁))
    (hA₁ : A₁.length = argumentCount (Scan.ofChars T₁).tokens)
    (h₂ : (ofChars T₂).format S₂ A₂ = (.ok (.ofChars R₂), r₂))
    (hA₂ : ∀ x ∈ (ofChars T₂).readings S₂ A₂, x.IsIndifferent .wide32 R₁.length S₂ r₁.slots) :
    ∃ r stores₁ stores₂,
      (ofChars (T₁ ++ T₂)).format S₁ (A₁ ++ A₂) = (.ok (.ofChars (R₁ ++ R₂)), r) ∧
      (ofChars (T₁ ++ T₂)).counts S₁ (A₁ ++ A₂) =
        (ofChars T₁).counts S₁ A₁ ++ ((ofChars T₂).counts S₂ A₂).map (· + R₁.length) ∧
      r₁.slots = stores₁ ++ S₁ ∧ r₂.slots = stores₂ ++ S₂ ∧
      r.slots = stores₂.shift R₁.length ++ (stores₁ ++ S₁) := by
  obtain ⟨P₁, hP₁, hscan₁, rfl, hslots₁, hcounts₁⟩ := exists_steps_of_format_ofChars h₁
  obtain ⟨P₂, hP₂, hscan₂, rfl, hslots₂, hcounts₂⟩ := exists_steps_of_format_ofChars h₂
  obtain ⟨stores₁, hstores₁⟩ := hP₁.slots_suffix
  -- the first template leaves nothing of its own values, so the second begins with its own
  have hpending : P₁.pending = [] := by
    have hlength := hP₁.length_pending
    simp only [hA₁] at hlength
    exact List.eq_nil_of_length_eq_zero (by omega)
  have hfirst := hP₁.extend A₂
  have hstart : Progress.Follows .wide32 P₁.text S₂ P₁.slots P₁.counts [] ⟨A₂, S₂, [], []⟩
      (P₁.extend A₂) := by
    refine ⟨?_, ?_, rfl, rfl, ?_⟩
    · rw [Progress.extend, hpending, List.nil_append]
    · rw [Progress.extend, List.append_nil]
    · rw [Progress.extend, List.map_nil, List.append_nil]
  rw [← Width.length_wide32, ← hslots₁] at hA₂
  obtain ⟨stores₂, Q, hsecond, hQ⟩ :=
    hP₂.follows hstart (Run.shows_initial .wide32 S₂ A₂) hA₂ T₁.length
  have hsteps := Progress.steps_joinTokens.2 (Progress.steps_append.2 ⟨_, hfirst, hsecond⟩)
  have hscan := Scan.ofChars_append hscan₁ hscan₂
  obtain ⟨r, hr, hslots, hcounts⟩ := exists_format (f := ofChars (T₁ ++ T₂)) (R := .ofChars Q.text)
    (by rw [ofChars, hscan]; exact hsteps) (by rw [ofChars, hscan]; rfl) rfl
  refine ⟨r, stores₁, stores₂, ?_, ?_, ?_, ?_, ?_⟩
  · rw [← hQ.text]
    exact hr
  · rw [hcounts, hQ.counts, ← hcounts₁, ← hcounts₂, Width.length_wide32]
  · rw [← hslots₁, ← hstores₁]
  · rw [← hslots₂, hQ.slots]
  · rw [hslots, hQ.slots', Width.length_wide32, ← hstores₁]

/-- Both templates store. -/
theorem format_append_two_counts :
    ∃ r, (ofChars (Chars.ofString "ab%n" ++ Chars.ofString "c%d%n")).format []
        ([.slot "a" none] ++ [.integer 5, .slot "b" none]) =
          (.ok (.ofChars (Chars.ofString "ab" ++ Chars.ofString "c5")), r) ∧
      r.slots = [("b", 4), ("a", 2)] := by
  have h₁ : (ofChars (Chars.ofString "ab%n")).format [] [.slot "a" none] =
      (.ok (.ofChars (Chars.ofString "ab")), _) := format_of_toOption (by decide +kernel)
  have h₂ : (ofChars (Chars.ofString "c%d%n")).format [] [.integer 5, .slot "b" none] =
      (.ok (.ofChars (Chars.ofString "c5")), _) := format_of_toOption (by decide +kernel)
  obtain ⟨r, stores₁, stores₂, hr, -, hstores₁, hstores₂, hslots⟩ :=
    format_append h₁ (by decide) h₂ (by decide +kernel)
  refine ⟨r, hr, ?_⟩
  rw [hslots, ← hstores₁]
  rw [List.append_nil] at hstores₂
  rw [← hstores₂]
  decide +kernel

/-- Formatting with two templates, one behind the other, gives the two results, one behind the
other, if the first template consumes all its values. -/
def Appends (T₁ T₂ : Chars) (A₁ A₂ : List Value) : Prop :=
  ∀ (R₁ R₂ : Chars) (r₁ r₂ : Run), (ofChars T₁).format [] A₁ = (.ok (.ofChars R₁), r₁) →
    A₁.length = argumentCount (Scan.ofChars T₁).tokens →
    (ofChars T₂).format [] A₂ = (.ok (.ofChars R₂), r₂) →
    ∃ r, (ofChars (T₁ ++ T₂)).format [] (A₁ ++ A₂) = (.ok (.ofChars (R₁ ++ R₂)), r)

/-- Values that make the difference seen: a slot that is shown behind its count, in a list, a
variable that is written behind its count, and a byte that has no room for a count. -/
theorem not_appends :
    let list : List Part :=
      [.own (Chars.ofString "["), .slot "a" none, .own (Chars.ofString "]")]
    let counter : Value := .cell "c" (.integer (IntegerType.store ⟨32, true, by decide⟩ 0))
    ¬Appends (Chars.ofString "ab") (Chars.ofString "%n%s") []
      [.slot "a" none, .object { typeName := "list", name := none, text := list, shown := list }] ∧
    ¬Appends (Chars.ofString "ab") (Chars.ofString "%n%d") []
      [.argument .slot counter none true none, counter] ∧
    ¬Appends (List.replicate 256 (CodePoint.ofChar 'x')) (Chars.ofString "%n") []
      [.argument .slot (.cell "b" (.byte 0)) none true none] := by
  intro list counter
  refine ⟨fun h => ?_, fun h => ?_, fun h => ?_⟩
  · obtain ⟨r, hr⟩ := h (Chars.ofString "ab") (Chars.ofString "[<CountSlot 0>]") _ _
      (format_of_toOption (by decide +kernel)) (by decide) (format_of_toOption (by decide +kernel))
    exact absurd (toOption_of_format hr) (by decide +kernel)
  · obtain ⟨r, hr⟩ := h (Chars.ofString "ab") (Chars.ofString "0") _ _
      (format_of_toOption (by decide +kernel)) (by decide) (format_of_toOption (by decide +kernel))
    exact absurd (toOption_of_format hr) (by decide +kernel)
  · obtain ⟨r, hr⟩ := h (List.replicate 256 (CodePoint.ofChar 'x')) [] _ _
      (format_of_toOption (by decide +kernel)) (by decide +kernel)
      (format_of_toOption (by decide +kernel))
    exact absurd (toOption_of_format hr) (by decide +kernel)

end Formatter

end UnitText
