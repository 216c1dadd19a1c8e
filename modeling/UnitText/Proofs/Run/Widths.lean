import UnitText.Proofs.Format.Widths
import UnitText.Proofs.Run.Concatenation
import UnitText.Proofs.Run.Counting

/-!
# Templates of another width

A template is formatted alike in every width, if what its text and character conversions write is
ASCII text; its literal text may be any. Two runs of it, which count in different units, go on side
by side, and come to the same end.

The counts that they store differ: each is the length of the same output, in other units. So what is
read must not show a count that was stored before, and a value that has to hold a count must have
room for both or for neither.

## Main definitions

- `Slots.recount` — stored counts in units of another width
- `Reading.IsSteady` — a reading that makes no difference between two widths
- `Run.Tracks` — a run is where another one is, but counts in units of another width
- `Run.Together` — two actions on such runs lead to such runs, or fail alike

## Main statements

- `Run.step_agrees`, `Run.forM_agrees` — what a token and several tokens do to two such runs
- `Formatter.widths_agree` — formatting in templates of two widths
-/

namespace UnitText

/-- Counts of the widest units in a text, counted in units of another width. -/
def Slots.recount (w : Width) (text : Chars) (slots : Slots) : Slots :=
  slots.map fun e => (e.1, w.length (text.take e.2))

theorem Slots.recount_append (w : Width) (text : Chars) (slots slots' : Slots) :
    recount w text (slots ++ slots') = recount w text slots ++ recount w text slots' :=
  List.map_append

/-- Counts in a text do not change when more is added to it. -/
theorem Slots.recount_append_text (w : Width) {text : Chars} {slots : Slots}
    (h : ∀ e ∈ slots, e.2 ≤ text.length) (cs : Chars) :
    recount w (text ++ cs) slots = recount w text slots := by
  refine List.map_congr_left fun e he => ?_
  rw [List.take_append_of_le_length (h e he)]

/-- What text and character conversions write of a value that is read is ASCII text. The counts
`slots` were stored before the run. -/
def Reading.WritesAscii (slots : Slots) (x : Reading) : Prop :=
  x.role = none → ∀ a ∈ (x.value.refresh (x.stores ++ slots)).adapt.toOption, x.spec.WritesAscii a

instance (slots : Slots) (x : Reading) : Decidable (x.WritesAscii slots) :=
  inferInstanceAs (Decidable (x.role = none →
    ∀ a ∈ (x.value.refresh (x.stores ++ slots)).adapt.toOption, x.spec.WritesAscii a))

/-- A reading that makes no difference between the widest units and others: what is written is ASCII
text, and neither what was stored nor the count itself makes a difference. -/
structure Reading.IsSteady (w : Width) (slots : Slots) (x : Reading) : Prop where
  ascii : x.WritesAscii slots
  alike : x.IsAlike (x.stores ++ slots) (x.stores.recount w x.text ++ slots) x.text.length
    (w.length x.text)

instance (w : Width) (slots : Slots) (x : Reading) : Decidable (x.IsSteady w slots) :=
  decidable_of_iff (x.WritesAscii slots ∧ x.IsAlike (x.stores ++ slots)
      (x.stores.recount w x.text ++ slots) x.text.length (w.length x.text))
    ⟨fun h => ⟨h.1, h.2⟩, fun h => ⟨h.ascii, h.alike⟩⟩

namespace Run

/-- The second run is where the first one is, behind the same text, but counts in units of another
width. Both have stored counts of that text, the first one `stores`. -/
structure Tracks (w : Width) (base : Slots) (text : Chars) (stores : Slots) (r r' : Run) :
    Prop where
  phase : r.phase = .scanning
  phase' : r'.phase = .scanning
  pending : r'.pending = r.pending
  used : r'.used = r.used
  slots : r.slots = stores ++ base
  slots' : r'.slots = stores.recount w text ++ base
  /-- All counts are lengths of fronts of the text. -/
  le : ∀ e ∈ stores, e.2 ≤ text.length
  output : Piece.join r.output = .ok text
  output' : Piece.join r'.output = .ok text
  written : r.written = text.length
  written' : r'.written = w.length text
  noSurrogate : ∀ c ∈ text, ¬c.IsSurrogate

/-- Two runs go on side by side, behind some text. -/
def InStep (w : Width) (base : Slots) (r r' : Run) : Prop :=
  ∃ text stores, Tracks w base text stores r r'

section

variable {w : Width} {base : Slots} {text : Chars} {stores : Slots} {r r' : Run}

/-- A run does not remember what it reported. -/
theorem Tracks.with_events (hr : Tracks w base text stores r r') (events events' : List Event) :
    Tracks w base text stores { r with events } { r' with events := events' } :=
  ⟨hr.phase, hr.phase', hr.pending, hr.used, hr.slots, hr.slots', hr.le, hr.output, hr.output',
    hr.written, hr.written', hr.noSurrogate⟩

/-- Both runs store their counts under one name. -/
theorem Tracks.store (hr : Tracks w base text stores r r') (k : Kind) {v v' : Value}
    (hplace : v'.place? = v.place?) (events events' : List Event) :
    Tracks w base text (k.stores text.length v ++ stores)
      { r with events, slots := k.stores r.written v ++ r.slots }
      { r' with events := events', slots := k.stores r'.written v' ++ r'.slots } := by
  have hrecount : k.stores (w.length text) v' = (k.stores text.length v).recount w text := by
    cases k with
    | count =>
      cases hname : v.place? with
      | none => simp [Kind.stores, hplace, hname, Slots.recount]
      | some name => simp [Kind.stores, hplace, hname, Slots.recount]
    | _ => rfl
  have hle : ∀ e ∈ k.stores text.length v, e.2 ≤ text.length := by
    intro e he
    unfold Kind.stores at he
    split at he
    · obtain rfl := List.mem_singleton.1 he
      exact Nat.le_refl _
    · cases he
  refine ⟨hr.phase, hr.phase', hr.pending, hr.used, ?_, ?_,
    List.forall_mem_append.2 ⟨hle, hr.le⟩, hr.output, hr.output', hr.written, hr.written',
    hr.noSurrogate⟩
  · rw [hr.written, hr.slots, List.append_assoc]
  · rw [hr.written', hr.slots', hrecount, Slots.recount_append, List.append_assoc]

end

/-- Two actions on runs succeed and lead to what is related, or fail alike. -/
inductive Together {α β : Type} (Q : α → Run → β → Run → Prop) :
    EStateM.Result Failure Run α → EStateM.Result Failure Run β → Prop where
  | ok {a : α} {b : β} {r r' : Run} (h : Q a r b r') : Together Q (.ok a r) (.ok b r')
  | error {e e' : Failure} {r r' : Run} (h : e.IsLike e') : Together Q (.error e r) (.error e' r')

variable {α β α' β' : Type} {w : Width} {base : Slots} {text : Chars} {stores : Slots}
  {s : Specifier} {r r' : Run}

namespace Together

variable {Q : α → Run → β → Run → Prop} {P : α' → Run → β' → Run → Prop}

theorem bind {x : RunM α} {y : RunM β} {g : α → RunM α'} {h : β → RunM β'}
    (hxy : Together Q (x r) (y r'))
    (hgh : ∀ a r₁ b r₁', x r = .ok a r₁ → Q a r₁ b r₁' → Together P (g a r₁) (h b r₁')) :
    Together P ((x >>= g) r) ((y >>= h) r') := by
  generalize hx : x r = result at hxy
  generalize hy : y r' = result' at hxy
  cases hxy with
  | ok hQ =>
    rw [bind_of_ok hx, bind_of_ok hy]
    exact hgh _ _ _ _ hx hQ
  | error he =>
    rw [bind_of_error hx, bind_of_error hy]
    exact .error he

theorem attempt {R : α → β → Prop} {x : Except Failure α} {y : Except Failure β}
    (h : Agree R x y) : Together (fun a r₁ b r₁' => R a b ∧ r₁ = r ∧ r₁' = r')
      (Run.attempt x r) (Run.attempt y r') := by
  cases h with
  | ok hab => exact .ok ⟨hab, rfl, rfl⟩
  | error he => exact .error he

end Together

/-! ## Steps side by side -/

/-- Both runs consume the same value, which may show different counts. -/
theorem nextArgument_agrees (hr : Tracks w base text stores r r') (s : Specifier) :
    Together (fun a r₁ b r₁' => Tracks w base text stores r₁ r₁' ∧ ∃ v, r.pending.head? = some v ∧
        (v.refresh (stores ++ base)).adapt = .ok a ∧
        (v.refresh (stores.recount w text ++ base)).adapt = .ok b ∧ a.Resembles b)
      (nextArgument s r) (nextArgument s r') := by
  cases hpending : r.pending with
  | nil =>
    have hfails : nextArgument s r = .error (.problem (.notEnoughArguments s (r.used + 1))) r :=
      nextArgument_eq_error.2 (.inl ⟨hpending, rfl, rfl⟩)
    have hfails' : nextArgument s r' = .error (.problem (.notEnoughArguments s (r.used + 1))) r' :=
      nextArgument_eq_error.2 (.inl ⟨hr.pending.trans hpending, by rw [hr.used], rfl⟩)
    rw [hfails, hfails']
    exact .error (.refl _)
  | cons v rest =>
    cases ha : (v.refresh r.slots).adapt with
    | error e =>
      have hb : (v.refresh r'.slots).adapt = .error e :=
        (Value.adapt_refresh_eq_error _).2 ((Value.adapt_refresh_eq_error _).1 ha)
      rw [nextArgument_eq_error.2 (.inr ⟨v, rest, hpending, ha, rfl⟩),
        nextArgument_eq_error.2 (.inr ⟨v, rest, hr.pending.trans hpending, hb, rfl⟩)]
      exact .error (.refl e)
    | ok a =>
      obtain ⟨b, hb, hab⟩ := Value.exists_adapt_refresh r.slots r'.slots ha
      rw [nextArgument_eq_ok.2 ⟨v, rest, hpending, ha, rfl⟩,
        nextArgument_eq_ok.2 ⟨v, rest, hr.pending.trans hpending, hb, rfl⟩]
      rw [hr.slots] at ha
      rw [hr.slots'] at hb
      refine .ok ⟨⟨hr.phase, hr.phase', rfl, ?_, hr.slots, hr.slots', hr.le, hr.output,
        hr.output', hr.written, hr.written', hr.noSurrogate⟩, v, rfl, ha, hb, hab⟩
      simp only [hr.used]

theorem resolve_agrees (hr : Tracks w base text stores r r') (s : Specifier) (role : StarRole)
    (c : Option Count)
    (hsteady : ∀ u ∈ (Count.roles role c).zip r.pending,
      Reading.IsSteady w base ⟨s, u.1, u.2, text, stores⟩) :
    Together (fun n r₁ n' r₁' => n' = n ∧ Tracks w base text stores r₁ r₁')
      (resolve s role c r) (resolve s role c r') := by
  match c with
  | none => exact .ok ⟨rfl, hr⟩
  | some (.number n) => exact .ok ⟨rfl, hr⟩
  | some .star =>
    refine (nextArgument_agrees hr s).bind fun a r₁ b r₁' _ h => ?_
    obtain ⟨hr₁, v, hv, ha, hb, hab⟩ := h
    have hsame : a.family = .integer → b = a := by
      intro hfamily
      have hmem : (some role, v) ∈ (Count.roles role (some .star)).zip r.pending := by
        obtain ⟨rest, hrest⟩ := List.head?_eq_some_iff.1 hv
        simp [Count.roles, hrest]
      have ha' := (hsteady _ hmem).alike.adapt_eq (fun h => nomatch h.1) ha hfamily
      exact Except.ok.inj (hb.symm.trans ha')
    refine (Together.attempt (hab.starValue_agrees hsame s role)).bind fun n r₂ m r₂' _ h => ?_
    obtain ⟨rfl, rfl, rfl⟩ := h
    exact .ok ⟨rfl, hr₁⟩

/-- Characters other than surrogates are added to both runs. -/
theorem emit_agrees (hr : Tracks w base text stores r r') {cs : Chars}
    (hcs : ∀ c ∈ cs, ¬c.IsSurrogate) :
    Together (fun _ r₁ _ r₁' => InStep w base r₁ r₁')
      (emit .wide32 (.chars cs) r) (emit w (.chars cs) r') := by
  obtain ⟨pieces, hemit, hjoin⟩ := exists_emit (w := .wide32) (.chars cs) hr.output
  obtain ⟨pieces', hemit', hjoin'⟩ := exists_emit (w := w) (.chars cs) hr.output'
  rw [hemit, hemit']
  refine .ok ⟨text ++ cs, stores, hr.phase, hr.phase', hr.pending, hr.used, hr.slots, ?_, ?_,
    hjoin, hjoin', ?_, ?_, List.forall_mem_append.2 ⟨hr.noSurrogate, hcs⟩⟩
  · rw [Slots.recount_append_text w hr.le]
    exact hr.slots'
  · intro e he
    rw [List.length_append]
    exact Nat.le_add_right_of_le (hr.le e he)
  · simp only [hr.written, Width.length_wide32, List.length_append]
  · simp only [hr.written', Width.length_append]

theorem convert_agrees (hr : Tracks w base text stores r r') {f : Field}
    (hf : f.charWidth = .wide32) (hwritten : f.written = r.written) (hkind : f.spec.kind ≠ .percent)
    {v : Value} {a b : Argument} (ha : (v.refresh (stores ++ base)).adapt = .ok a)
    (hb : (v.refresh (stores.recount w text ++ base)).adapt = .ok b) (hab : a.Resembles b)
    (hsteady : Reading.IsSteady w base ⟨f.spec, none, v, text, stores⟩) :
    Together (fun _ r₁ _ r₁' => InStep w base r₁ r₁')
      (convert f a r) (convert (f.atWidth w r'.written) b r') := by
  have halike := hsteady.alike
  simp only [← hr.written, ← hr.written', ← hwritten] at halike
  have hsame : f.spec.kind ≠ .count → a.suits f.spec.kind = .ok true → b = a := by
    intro hcount hsuits
    have ha' := halike.adapt_eq (fun h => hcount h.2) ha hsuits
    exact Except.ok.inj (hb.symm.trans ha')
  have hrender := f.render_agrees w r'.written hab hkind
    (hsteady.ascii rfl a (mem_toOption.2 ha)) hsame fun hcount => halike.room ⟨rfl, hcount⟩ ha
  generalize hx : f.render a = x at hrender
  generalize hy : (f.atWidth w r'.written).render b = y at hrender
  cases hrender with
  | @ok p q h =>
    obtain ⟨rfl, hascii⟩ := h
    cases q with
    | value v => cases hascii
    | chars cs =>
      obtain ⟨events, hemit⟩ := convert_eq_emit (r := r) hx
      obtain ⟨events', hemit'⟩ := convert_eq_emit (r := r') hy
      rw [hemit, hemit', hf]
      exact emit_agrees (hr.store f.spec.kind hab.place events events') fun c hc =>
        (hascii c hc).not_isSurrogate
  | error he =>
    obtain ⟨r₁, hr₁⟩ := convert_eq_error (r := r) hx
    obtain ⟨r₁', hr₁'⟩ := convert_eq_error (r := r') hy
    rw [hr₁, hr₁']
    exact .error he

/-- The percent sign is ASCII, as wide as its field may be. -/
theorem percent_agrees (hr : Tracks w base text stores r r') (width precision : Option Int) :
    Together (fun _ r₁ _ r₁' => InStep w base r₁ r₁')
      ((do
        report (.formatting s none)
        emit .wide32 (.chars (← Run.attempt
          (Field.create s width precision .wide32 (← get).written).percent)) : RunM Unit) r)
      ((do
        report (.formatting s none)
        emit w (.chars (← Run.attempt
          (Field.create s width precision w (← get).written).percent)) : RunM Unit) r') := by
  let f := Field.create s width precision .wide32 r.written
  have hpercent := Agree.of_sameAscii (f.same_percent w r'.written)
  show Together _
    ((Run.attempt f.percent >>= fun cs => emit .wide32 (.chars cs))
      { r with events := .formatting s none :: r.events })
    ((Run.attempt (f.atWidth w r'.written).percent >>= fun cs => emit w (.chars cs))
      { r' with events := .formatting s none :: r'.events })
  refine (Together.attempt hpercent).bind fun cs r₁ _ r₁' _ h => ?_
  obtain ⟨⟨rfl, hascii⟩, rfl, rfl⟩ := h
  exact emit_agrees (hr.with_events _ _) fun c hc => (hascii c hc).not_isSurrogate

/-- A specifier is applied in both runs, if what it reads makes no difference. -/
theorem apply_agrees (hr : Tracks w base text stores r r')
    (hsteady : ∀ x ∈ Token.readings stores r (.specifier s), x.IsSteady w base) :
    Together (fun _ r₁ _ r₁' => InStep w base r₁ r₁')
      (apply .wide32 s r) (apply w s r') := by
  by_cases htakes : s.kind.takes s.length
  case neg =>
    rw [apply_of_length hr.phase htakes, apply_of_length hr.phase' htakes]
    exact .error (.refl _)
  simp only [Token.readings, htakes, hr.output, List.forall_mem_map, uses] at hsteady
  obtain ⟨hwidths, hsteady⟩ := List.forall_mem_append.1 hsteady
  rw [apply_eq hr.phase htakes, apply_eq hr.phase' htakes]
  refine (resolve_agrees hr s .width s.width hwidths).bind fun _ r₁ width r₁' hwidth h => ?_
  obtain ⟨rfl, hr₁⟩ := h
  simp only [hwidth] at hsteady
  obtain ⟨hprecisions, hsteady⟩ := List.forall_mem_append.1 hsteady
  refine (resolve_agrees hr₁ s .precision s.precision hprecisions).bind
    fun _ r₂ precision r₂' hprecision h => ?_
  obtain ⟨rfl, hr₂⟩ := h
  simp only [hprecision] at hsteady
  split
  · exact percent_agrees hr₂ width precision
  · next hkind =>
    refine (nextArgument_agrees hr₂ s).bind fun a r₃ b r₃' hnext h => ?_
    obtain ⟨hr₃, v, hv, ha, hb, hab⟩ := h
    have hmem : (none, v) ∈ s.kind.roles.zip r₂.pending := by
      obtain ⟨rest, hrest⟩ := List.head?_eq_some_iff.1 hv
      simp [Kind.roles, hkind, hrest]
    exact convert_agrees hr₃ (f := .create s width precision .wide32 r₃.written) rfl rfl hkind ha hb
      hab (hsteady _ hmem)

theorem step_agrees (hr : Tracks w base text stores r r') {t : Token}
    (ht : t.All fun c => ¬c.IsSurrogate)
    (hsteady : ∀ x ∈ t.readings stores r, x.IsSteady w base) :
    Together (fun _ r₁ _ r₁' => InStep w base r₁ r₁')
      (step .wide32 t r) (step w t r') := by
  cases t with
  | literal cs offset => exact emit_agrees hr ht
  | specifier s => exact apply_agrees hr hsteady

theorem forM_agrees (hr : Tracks w base text stores r r') {ts : List Token}
    (hts : ∀ t ∈ ts, t.All fun c => ¬c.IsSurrogate)
    (hsteady : ∀ x ∈ readings .wide32 ts stores r, x.IsSteady w base) :
    Together (fun _ r₁ _ r₁' => InStep w base r₁ r₁')
      (ts.forM (step .wide32) r) (ts.forM (step w) r') := by
  induction ts generalizing r r' text stores with
  | nil => exact .ok ⟨text, stores, hr⟩
  | cons t ts ih =>
    obtain ⟨ht, hts⟩ := List.forall_mem_cons.1 hts
    rw [readings, List.forall_mem_append] at hsteady
    show Together _ ((step .wide32 t >>= fun _ => ts.forM (step .wide32)) r)
      ((step w t >>= fun _ => ts.forM (step w)) r')
    refine (step_agrees hr ht hsteady.1).bind fun _ r₁ _ r₁' hok h => ?_
    obtain ⟨text₁, stores₁, hr₁⟩ := h
    -- what the token stored is what the readings behind it take to be stored
    have hslots := (advances_of_step hok).slots
    rw [hr₁.slots, hr.slots, ← List.append_assoc] at hslots
    obtain rfl := List.append_cancel_right hslots
    rw [hok] at hsteady
    exact ih hr₁ hts hsteady.2

end Run

namespace Formatter

/-- The formatter of an encoded template. -/
theorem create_encodeText (w : Width) {T : Chars} (hT : ∀ c ∈ T, ¬c.IsSurrogate) :
    ∃ t, w.encodeText T = .ok t ∧ create t = .ok { container := w.container, template := T } := by
  obtain ⟨t, ht, hdecode⟩ := w.decode_encodeText hT
  refine ⟨t, ht, create_eq_ok.2 ⟨hdecode, ?_⟩⟩
  obtain ⟨us, -, ht⟩ := bind_eq_ok.1 ht
  obtain rfl := pure_eq_ok.1 ht
  rfl

theorem eq_of_create_encodeText {w : Width} {T : Chars} (hT : ∀ c ∈ T, ¬c.IsSurrogate) {t : Text}
    {g : Formatter} (ht : w.encodeText T = .ok t) (hg : create t = .ok g) :
    g = { container := w.container, template := T } := by
  obtain ⟨t', ht', hg'⟩ := create_encodeText w hT
  obtain rfl := Except.ok.inj (ht.symm.trans ht')
  exact Except.ok.inj (hg.symm.trans hg')

theorem run_agrees {T : Chars} (hT : ∀ c ∈ T, ¬c.IsSurrogate) {w : Width} {slots : Slots}
    {values : List Value}
    (hsteady : ∀ x ∈ (ofChars T).readings slots values, x.IsSteady w slots) :
    Run.Together (fun _ r _ r' => r.InStep w slots r')
      ((ofChars T).run { pending := values, slots })
      (Formatter.run { container := w.container, template := T } { pending := values, slots }) := by
  have hwidth : w.container.width = w := by cases w <;> rfl
  have hstart : Run.Tracks w slots [] []
      { pending := values, slots } { pending := values, slots } :=
    ⟨rfl, rfl, rfl, rfl, rfl, rfl, List.forall_mem_nil _, rfl, rfl, rfl, rfl, List.forall_mem_nil _⟩
  have hforM := Run.forM_agrees hstart ((ScansTo.fromOffset 0 T).all hT) hsteady
  unfold run
  simp only [width, hwidth, ofChars]
  refine hforM.bind fun _ r _ r' _ h => ?_
  -- both scans end at the same place
  cases (Scan.ofChars T).failure with
  | none => exact .ok h
  | some e => exact .error (.refl e)

/-- **Formatting in every width.** A template without surrogates is formatted in the widest units
and, encoded, in those of another width, with one outcome: both times the same text, which is
encoded as the template is, or failures of one kind, at one place. What text and character
conversions write has to be ASCII text, but the literal text may be any. What is read may not show
other counts when they are counted in the other units, and a value that a count is stored in has to
have room for both counts or for neither. -/
theorem widths_agree {T : Chars} (hT : ∀ c ∈ T, ¬c.IsSurrogate) (w : Width) {slots : Slots}
    {values : List Value}
    (hsteady : ∀ x ∈ (ofChars T).readings slots values, x.IsSteady w slots) :
    ∃ t g, w.encodeText T = .ok t ∧ create t = .ok g ∧
      Agree (fun R R' => ∃ cs, R = .ofChars cs ∧ R'.decode = .ok cs)
        ((ofChars T).format slots values).1 (g.format slots values).1 := by
  obtain ⟨t, ht, hg⟩ := create_encodeText w hT
  refine ⟨t, _, ht, hg, ?_⟩
  have hrun := run_agrees hT hsteady
  simp only [format, execute]
  generalize (ofChars T).run { pending := values, slots } = result at hrun ⊢
  generalize Formatter.run { container := w.container, template := T }
    { pending := values, slots } = result' at hrun ⊢
  cases hrun with
  | error he => exact .error he
  | @ok _ _ r r' h =>
    obtain ⟨text, stores, hr⟩ := h
    obtain ⟨R, hR, hdecode⟩ := Text.decode_encodeLike w.container hr.noSurrogate
    show Agree _ (Piece.join r.output >>= (Text.encodeLike · .chars))
      (Piece.join r'.output >>= (Text.encodeLike · w.container))
    rw [hr.output, hr.output']
    show Agree _ (Text.encodeLike text .chars) (Text.encodeLike text w.container)
    rw [hR]
    exact .ok ⟨text, rfl, hdecode⟩

/-- A text between characters of two and of three bytes, and a count behind them. -/
theorem widths_agree_accent :
    ∃ t g R, Width.narrow.encodeText (Chars.ofString "é%5.3s€%n") = .ok t ∧ create t = .ok g ∧
      (g.format [] [.ofChars (Chars.ofString "abcd"), .slot "a" none]).1 = .ok R ∧
      R.decode = .ok (Chars.ofString "é  abc€") := by
  have hsteady : ∀ x ∈ (ofChars (Chars.ofString "é%5.3s€%n")).readings []
      [.ofChars (Chars.ofString "abcd"), .slot "a" none], x.IsSteady .narrow [] := by
    decide +kernel
  obtain ⟨t, g, ht, hg, hagree⟩ := widths_agree (by decide) .narrow hsteady
  have hresult : (ofChars (Chars.ofString "é%5.3s€%n")).format []
      [.ofChars (Chars.ofString "abcd"), .slot "a" none] = (.ok (.ofString "é  abc€"), _) :=
    format_of_toOption (by decide +kernel)
  obtain ⟨R, hR, cs, hcs, hdecode⟩ := hagree.of_ok (congrArg Prod.fst hresult)
  refine ⟨t, g, R, ht, hg, hR, ?_⟩
  rw [hdecode, Text.ofChars_inj.1 hcs]

/-- The outcome of formatting is the same in the widest units and in those of another width, if what
text and character conversions write is ASCII text. -/
def WidthsAgree (T : Chars) (w : Width) (values : List Value) : Prop :=
  (∀ c ∈ T, ¬c.IsSurrogate) →
    (∀ x ∈ (ofChars T).readings [] values, x.WritesAscii []) →
    ∃ t g, w.encodeText T = .ok t ∧ create t = .ok g ∧
      Agree (fun R R' => ∃ cs, R = .ofChars cs ∧ R'.decode = .ok cs)
        ((ofChars T).format [] values).1 (g.format [] values).1

/-- Formatting does not agree if the two results are different texts. -/
theorem not_widthsAgree_of_results {T : Chars} {values : List Value} (R R' : Chars)
    (hT : ∀ c ∈ T, ¬c.IsSurrogate)
    (hascii : ∀ x ∈ (ofChars T).readings [] values, x.WritesAscii [])
    (hwide : ((ofChars T).format [] values).1.toOption = some (.ofChars R))
    (hnarrow : (Formatter.format ⟨.bytes, T⟩ [] values).1.toOption =
      some (Container.bytes.pack (Utf8.bytes R')))
    (hne : (Container.bytes.pack (Utf8.bytes R')).decode.toOption ≠ some R) :
    ¬WidthsAgree T .narrow values := by
  intro h
  obtain ⟨t, g, ht, hg, hagree⟩ := h hT hascii
  obtain rfl := eq_of_create_encodeText hT ht hg
  obtain ⟨R₁, hR₁, cs, hcs, hdecode⟩ := hagree.of_ok (mem_toOption.1 hwide)
  have hsame := Except.ok.inj ((mem_toOption.1 hnarrow).symm.trans hR₁)
  refine hne (mem_toOption.2 ?_)
  rw [hsame, hdecode, Text.ofChars_inj.1 hcs]

/-- Values that make the difference seen: a slot that is shown behind its count, in a list, a
variable that is written behind its count, and a byte that has room for the one count only. -/
theorem not_widthsAgree :
    let list : List Part :=
      [.own (Chars.ofString "["), .slot "a" none, .own (Chars.ofString "]")]
    let counter : Value := .cell "c" (.integer (IntegerType.store ⟨32, true, by decide⟩ 0))
    ¬WidthsAgree (Chars.ofString "é%n%s") .narrow
      [.slot "a" none, .object { typeName := "list", name := none, text := list, shown := list }] ∧
    ¬WidthsAgree (Chars.ofString "é%n%d") .narrow
      [.argument .slot counter none true none, counter] ∧
    ¬WidthsAgree (List.replicate 200 (CodePoint.ofChar 'é') ++ Chars.ofString "%n") .narrow
      [.argument .slot (.cell "b" (.byte 0)) none true none] := by
  intro list counter
  refine ⟨?_, ?_, fun h => ?_⟩
  · exact not_widthsAgree_of_results (Chars.ofString "é[<CountSlot 1>]")
      (Chars.ofString "é[<CountSlot 2>]") (by decide) (by decide +kernel) (by decide +kernel)
      (by decide +kernel) (by decide +kernel)
  · exact not_widthsAgree_of_results (Chars.ofString "é1") (Chars.ofString "é2") (by decide)
      (by decide +kernel) (by decide +kernel) (by decide +kernel) (by decide +kernel)
  · obtain ⟨t, g, ht, hg, hagree⟩ := h (by decide +kernel) (by decide +kernel)
    obtain rfl := eq_of_create_encodeText (by decide +kernel) ht hg
    have hstring : (ofChars (List.replicate 200 (CodePoint.ofChar 'é') ++
        Chars.ofString "%n")).format [] [.argument .slot (.cell "b" (.byte 0)) none true none] =
          (.ok (.ofChars (List.replicate 200 (CodePoint.ofChar 'é'))), _) :=
      format_of_toOption (by decide +kernel)
    obtain ⟨R, hR, -⟩ := hagree.of_ok (congrArg Prod.fst hstring)
    have hnarrow : (Formatter.format ⟨.bytes, List.replicate 200 (CodePoint.ofChar 'é') ++
        Chars.ofString "%n"⟩ [] [.argument .slot (.cell "b" (.byte 0)) none true none]).1.toOption =
          none := by decide +kernel
    have hnone := congrArg Except.toOption hR
    rw [show Width.narrow.container = .bytes from rfl, hnarrow] at hnone
    cases hnone

end Formatter

end UnitText
