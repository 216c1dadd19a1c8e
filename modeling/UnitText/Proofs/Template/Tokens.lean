import UnitText.Proofs.Template.Scanning

/-!
# Templates and their tokens

The scanner takes exactly the texts that the grammar describes, and its tokens share out the text
among them. Where it fails, it names the first percent sign at which no token begins.

## Main definitions

- `Chars.DigitRunsReadable` — no run of digits is too long to be a count
- `Scan.Explains` — what a scan has to say about the text that was scanned

## Main statements

- `ScansTo.explains` — scans do say that
- `Scan.ofChars_exact` — the scan of a template
-/

namespace UnitText

/-- No run of digits in a text is longer than a number that is read may be. -/
def Chars.DigitRunsReadable (cs : Chars) : Prop :=
  ∀ run : Chars, run <:+: cs → (∀ c ∈ run, c.digit?.isSome) → run.length ≤ Integer.digitLimit

namespace Chars.DigitRunsReadable

theorem of_isInfix {cs ds : Chars} (h : DigitRunsReadable cs) (hds : ds <:+: cs) :
    DigitRunsReadable ds :=
  fun run hrun => h run (hrun.trans hds)

theorem of_cons {c : CodePoint} {cs : Chars} (h : DigitRunsReadable (c :: cs)) :
    DigitRunsReadable cs :=
  h.of_isInfix (List.suffix_cons c cs).isInfix

theorem of_length_le {cs : Chars} (h : cs.length ≤ Integer.digitLimit) : DigitRunsReadable cs :=
  fun _ hrun _ => hrun.length_le.trans h

end Chars.DigitRunsReadable

theorem CountSource.IsWritten.length_le {ds : List Nat} {cs : Chars}
    (h : (CountSource.digits ds).IsWritten cs) (hcs : cs.DigitRunsReadable) :
    ds.length ≤ Integer.digitLimit := by
  cases h with
  | digits _ hds =>
    have hlength : cs.length = ds.length := by simpa using congrArg List.length hds
    rw [← hlength]
    refine hcs cs (List.infix_refl cs) fun c hc => ?_
    have hmem : c.digit? ∈ ds.map some := hds ▸ List.mem_map_of_mem hc
    obtain ⟨d, -, hd⟩ := List.mem_map.1 hmem
    simp [← hd]

theorem SpecifierSource.IsWritten.toSpecifier_eq_ok {s : SpecifierSource} {body : Chars}
    (h : s.IsWritten body) (hbody : body.DigitRunsReadable) (offset : Nat) :
    s.toSpecifier offset = .ok (s.specifier offset) := by
  obtain ⟨flags, width, precision, rfl, -, -, hwidth, -, hprecision⟩ := h
  have hinner : (width ++ precision).DigitRunsReadable :=
    hbody.of_isInfix ⟨flags, Chars.ofString s.length.text ++ [CodePoint.ofChar s.kind.letter],
      by simp⟩
  refine SpecifierSource.toSpecifier_eq_ok offset ?_
  rintro ds (hds | hds)
  · rw [hds] at hwidth
    cases hwidth with
    | some hc => exact hc.length_le (hinner.of_isInfix (List.prefix_append _ _).isInfix)
  · rw [hds] at hprecision
    cases hprecision with
    | point => decide
    | @some _ cs hc =>
      have hsuffix : cs <:+ width ++ CodePoint.ofChar '.' :: cs :=
        ⟨width ++ [CodePoint.ofChar '.'], by simp⟩
      exact hc.length_le (hinner.of_isInfix hsuffix.isInfix)

/-! ## Tokens of a text -/

theorem IsLiteral.isTemplate_append {text source cs : Chars} (h : IsLiteral text source)
    (hcs : IsTemplate cs) : IsTemplate (source ++ cs) := by
  induction h with
  | nil => exact hcs
  | char hc _ ih => exact .char hc ih
  | escape _ ih => exact .escape ih

theorem IsLiteral.append {text source text' source' : Chars} (h : IsLiteral text source)
    (h' : IsLiteral text' source') : IsLiteral (text ++ text') (source ++ source') := by
  induction h with
  | nil => exact h'
  | char hc _ ih => exact .char hc ih
  | escape _ ih => exact .escape ih

namespace Tokenizes

theorem isTemplate {offset : Nat} {tokens : List Token} {cs : Chars}
    (h : Tokenizes offset tokens cs) : IsTemplate cs := by
  induction h with
  | nil => exact .nil
  | literal hliteral _ _ _ ih => exact hliteral.isTemplate_append ih
  | specifier hs _ _ ih => exact .specifier (isSpecifierText_iff.2 ⟨_, hs⟩) ih

theorem eq_nil {offset : Nat} {cs : Chars} (h : Tokenizes offset [] cs) : cs = [] := by
  cases h
  rfl

/-- A literal character before a text joins the literal text at its beginning, or becomes a token
of its own. -/
theorem cons {offset : Nat} {scan : Scan} {c : CodePoint} {source cs : Chars}
    (h : Tokenizes (offset + source.length) scan.tokens cs) (hc : IsLiteral [c] source)
    (hscan : scan.tokens ≠ [] ∨ scan.failure = none) :
    Tokenizes offset (scan.cons c offset).tokens (source ++ cs) := by
  obtain ⟨tokens, failure⟩ := scan
  cases tokens with
  | nil =>
    obtain rfl : failure = none := by simpa using hscan
    exact .literal hc (by simp) (by simp) h
  | cons token tokens =>
    cases token with
    | specifier s => exact .literal hc (by simp) (by simp [Token.IsLiteral]) h
    | literal text n =>
      cases h with
      | @literal _ _ source' cs _ hliteral _ hnext htokens =>
        rw [← List.append_assoc]
        refine .literal (hc.append hliteral) (by simp) hnext ?_
        simpa [Nat.add_assoc] using htokens

end Tokenizes

/-! ## What a scan says -/

namespace Scan

/-- What the scan of a text that begins at an offset has to say: either the text is a template and
the tokens share it out, or they share out all that stands before some literal text, behind which a
percent sign begins nothing. -/
def Explains (scan : Scan) (offset : Nat) (cs : Chars) : Prop :=
  match scan.failure with
  | none => Tokenizes offset scan.tokens cs
  | some e => ∃ front text source rest : Chars,
    e = .problem (malformed (offset + (front.length + source.length)) rest) ∧
    cs = front ++ (source ++ CodePoint.ofChar '%' :: rest) ∧
    Tokenizes offset scan.tokens front ∧ IsLiteral text source ∧
    (∀ t ∈ scan.tokens.getLast?, ¬t.IsLiteral) ∧ BeginsNothing rest

/-- A literal character before other text is not the last of the tokens if there was a last one
that was not literal. -/
theorem getLast?_cons {scan : Scan} (h : ∀ t ∈ scan.tokens.getLast?, ¬t.IsLiteral)
    (hne : scan.tokens ≠ []) (c : CodePoint) (offset : Nat) :
    ∀ t ∈ (scan.cons c offset).tokens.getLast?, ¬t.IsLiteral := by
  obtain ⟨tokens, failure⟩ := scan
  cases tokens with
  | nil => exact absurd rfl hne
  | cons token tokens =>
    cases token with
    | specifier s => exact h
    | literal text n =>
      cases tokens with
      | nil => exact absurd trivial (h _ rfl)
      | cons token tokens => exact h

theorem Explains.cons {scan : Scan} {offset : Nat} {c : CodePoint} {source cs : Chars}
    (hc : IsLiteral [c] source) (h : scan.Explains (offset + source.length) cs) :
    (scan.cons c offset).Explains offset (source ++ cs) := by
  cases hfailure : scan.failure with
  | none =>
    simp only [Explains, failure_cons, hfailure] at h ⊢
    exact h.cons hc (.inr hfailure)
  | some e =>
    simp only [Explains, failure_cons, hfailure] at h ⊢
    obtain ⟨front, text, source', rest, he, rfl, htokens, hliteral, hlast, hrest⟩ := h
    by_cases htoken : scan.tokens = []
    · -- no token stands before the failure, so the character joins the text that is dropped
      obtain rfl : front = [] := (htoken ▸ htokens).eq_nil
      have hcons : scan.cons c offset = scan := by
        obtain ⟨tokens, failure⟩ := scan
        obtain rfl : tokens = [] := htoken
        obtain rfl : failure = some e := hfailure
        rfl
      refine ⟨[], c :: text, source ++ source', rest, ?_, by simp, ?_, hc.append hliteral, ?_,
        hrest⟩
      · rw [he]
        simp [Nat.add_assoc]
      · rw [hcons, htoken]
        exact .nil
      · rw [hcons, htoken]
        simp
    · refine ⟨source ++ front, text, source', rest, ?_, by simp, htokens.cons hc (.inl htoken),
        hliteral, getLast?_cons hlast htoken c offset, hrest⟩
      rw [he]
      simp [Nat.add_assoc]

theorem Explains.specifier {scan : Scan} {offset : Nat} {s : SpecifierSource} {body cs : Chars}
    (h : scan.Explains (offset + (1 + body.length)) cs) (hs : s.IsWritten body)
    (hne : body ≠ [CodePoint.ofChar '%']) :
    Explains { scan with tokens := .specifier (s.specifier offset) :: scan.tokens } offset
      (CodePoint.ofChar '%' :: (body ++ cs)) := by
  cases hfailure : scan.failure with
  | none =>
    simp only [Explains, hfailure] at h ⊢
    exact .specifier hs hne h
  | some e =>
    simp only [Explains, hfailure] at h ⊢
    obtain ⟨front, text, source, rest, he, rfl, htokens, hliteral, hlast, hrest⟩ := h
    refine ⟨CodePoint.ofChar '%' :: (body ++ front), text, source, rest, ?_, by simp,
      .specifier hs hne htokens, hliteral, ?_, hrest⟩
    · rw [he]
      simp [Nat.add_assoc, Nat.add_comm, Nat.add_left_comm]
    · intro t ht
      cases htoken : scan.tokens with
      | nil =>
        obtain rfl : t = .specifier (s.specifier offset) := by simpa [htoken] using ht.symm
        exact id
      | cons token tokens =>
        refine hlast t ?_
        rw [htoken, List.getLast?_cons_cons] at ht
        rw [htoken]
        exact ht

end Scan

/-- What a scan gives explains the text, unless a count in it has too many digits. -/
theorem ScansTo.explains {offset : Nat} {cs : Chars} {scan : Scan} (h : ScansTo offset cs scan)
    (hcs : cs.DigitRunsReadable) : scan.Explains offset cs := by
  induction h with
  | nil => exact .nil
  | char hc _ ih => exact Scan.Explains.cons (.char hc .nil) (ih hcs.of_cons)
  | escape _ ih => exact Scan.Explains.cons (.escape .nil) (ih hcs.of_cons.of_cons)
  | @specifier offset s spec body cs _ hs hne hspec _ ih =>
    have hparts := hcs.of_cons
    rw [hs.toSpecifier_eq_ok (hparts.of_isInfix (List.prefix_append _ _).isInfix)] at hspec
    obtain rfl := Except.ok.inj hspec
    exact (ih (hparts.of_isInfix (List.suffix_append _ _).isInfix)).specifier hs hne
  | unreadable hs _ hspec =>
    have hbody := hcs.of_cons.of_isInfix (List.prefix_append _ _).isInfix
    rw [hs.toSpecifier_eq_ok hbody] at hspec
    cases hspec
  | @malformed offset cs h => exact ⟨[], [], [], cs, rfl, rfl, .nil, .nil, by simp, h⟩

theorem IsTemplate.exists_scansTo {cs : Chars} (h : IsTemplate cs) (hcs : cs.DigitRunsReadable)
    (offset : Nat) : ∃ scan, ScansTo offset cs scan ∧ scan.failure = none := by
  induction h generalizing offset with
  | nil => exact ⟨_, .nil, rfl⟩
  | char hc _ ih =>
    obtain ⟨scan, hscan, hfailure⟩ := ih hcs.of_cons (offset + 1)
    exact ⟨_, .char hc hscan, by rw [Scan.failure_cons, hfailure]⟩
  | escape _ ih =>
    obtain ⟨scan, hscan, hfailure⟩ := ih hcs.of_cons.of_cons (offset + 2)
    exact ⟨_, .escape hscan, by rw [Scan.failure_cons, hfailure]⟩
  | @specifier body cs hbody _ ih =>
    have hparts := hcs.of_cons
    have hrest := hparts.of_isInfix (List.suffix_append body cs).isInfix
    obtain ⟨s, hs⟩ := isSpecifierText_iff.1 hbody
    by_cases hne : body = [CodePoint.ofChar '%']
    · -- two percent signs are an escape, though the second could be the letter of a conversion
      obtain ⟨scan, hscan, hfailure⟩ := ih hrest (offset + 2)
      subst hne
      exact ⟨_, .escape hscan, by rw [Scan.failure_cons, hfailure]⟩
    · obtain ⟨scan, hscan, hfailure⟩ := ih hrest (offset + (1 + body.length))
      have hspec := hs.toSpecifier_eq_ok
        (hparts.of_isInfix (List.prefix_append body cs).isInfix) offset
      exact ⟨_, .specifier hs hne hspec hscan, hfailure⟩

/-- The scan of a template succeeds on the texts that the grammar describes, and its tokens share
out the template. Where it fails, it has given the tokens of all that stands before some literal
text, and it names the percent sign behind that text, which begins nothing. -/
theorem Scan.ofChars_exact {cs : Chars} (hcs : cs.DigitRunsReadable) :
    ((ofChars cs).failure = none ↔ IsTemplate cs) ∧
    ((ofChars cs).failure = none → Tokenizes 0 (ofChars cs).tokens cs) ∧
    ∀ e, (ofChars cs).failure = some e → ∃ (p : Problem) (front text source rest : Chars),
      e = .problem p ∧ p.category = .malformedTemplate ∧
      p.offset = some ((front.length + source.length : Nat) : Int) ∧
      cs = front ++ (source ++ CodePoint.ofChar '%' :: rest) ∧
      Tokenizes 0 (ofChars cs).tokens front ∧ IsLiteral text source ∧
      (∀ t ∈ (ofChars cs).tokens.getLast?, ¬t.IsLiteral) ∧ BeginsNothing rest := by
  have hexplains : (ofChars cs).Explains 0 cs := (ScansTo.fromOffset 0 cs).explains hcs
  have htokens : (ofChars cs).failure = none → Tokenizes 0 (ofChars cs).tokens cs := by
    intro hfailure
    simpa only [Explains, hfailure] using hexplains
  refine ⟨⟨fun hfailure => (htokens hfailure).isTemplate, fun htemplate => ?_⟩, htokens, ?_⟩
  · obtain ⟨scan, hscan, hfailure⟩ := htemplate.exists_scansTo hcs 0
    rw [ofChars, hscan.unique, hfailure]
  · intro e hfailure
    simp only [Explains, hfailure] at hexplains
    obtain ⟨front, text, source, rest, he, hrest⟩ := hexplains
    refine ⟨_, front, text, source, rest, he, ?_, ?_, hrest⟩
    · rw [malformed]
      split <;> rfl
    · rw [malformed, Nat.zero_add]
      split <;> rfl

/-- A specifier with all of its parts is scanned behind an escape; a percent sign before a space is
found behind them. -/
theorem Scan.ofChars_exact_trailing_percent :
    (Chars.ofString "5%% of %-05.*lld").DigitRunsReadable ∧
    IsTemplate (Chars.ofString "5%% of %-05.*lld") ∧
    (Chars.ofString "5%% of %-05.*lld% ").DigitRunsReadable ∧
    ¬IsTemplate (Chars.ofString "5%% of %-05.*lld% ") := by
  have hshort : (Chars.ofString "5%% of %-05.*lld").DigitRunsReadable := .of_length_le (by decide)
  have hlong : (Chars.ofString "5%% of %-05.*lld% ").DigitRunsReadable := .of_length_le (by decide)
  refine ⟨hshort, (Scan.ofChars_exact hshort).1.1 (by decide), hlong, fun h => ?_⟩
  exact absurd ((Scan.ofChars_exact hlong).1.2 h) (by decide)

end UnitText
