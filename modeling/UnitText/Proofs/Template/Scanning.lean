import UnitText.Proofs.Result
import UnitText.Proofs.Template.Parts

/-!
# What the scan of a template does

One rule for each thing that can stand at the beginning of a text: nothing, a literal character, a
percent sign written twice, a specifier, or a percent sign at which the scan ends. Everything about
scans is an induction on these rules.

## Main definitions

- `ScansTo` — the rules
- `Token.All` — a property of all literal characters

## Main statements

- `scansTo_iff` — the rules are the scanner
- `ScansTo.all` — literal text is made of characters of the template
- `SpecifierSource.toSpecifier_eq_ok` — specifiers are read unless a count has too many digits
-/

namespace UnitText

/-! ## Reading the parts of a specifier -/

namespace CountSource

theorem toCount_eq_ok {c : CountSource}
    (h : ∀ ds, c = .digits ds → ds.length ≤ Integer.digitLimit) : c.toCount = .ok c.count := by
  cases c with
  | star => rfl
  | digits ds =>
    have hle := h ds rfl
    rw [toCount, if_neg (by omega)]
    rfl

end CountSource

namespace SpecifierSource

/-- Specifiers are read if no count in them has too many digits. -/
theorem toSpecifier_eq_ok {s : SpecifierSource} (offset : Nat)
    (h : ∀ ds, s.width = some (.digits ds) ∨ s.precision = some (.digits ds) →
      ds.length ≤ Integer.digitLimit) : s.toSpecifier offset = .ok (s.specifier offset) := by
  have hcount : ∀ c : Option CountSource,
      (∀ ds, c = some (.digits ds) → ds.length ≤ Integer.digitLimit) →
      toCount? c = .ok (c.map CountSource.count) := by
    intro c hc
    cases c with
    | none => rfl
    | some c =>
      rw [toCount?, CountSource.toCount_eq_ok fun ds hds => hc ds (congrArg some hds)]
      rfl
  rw [toSpecifier, hcount _ fun ds hds => h ds (.inl hds), hcount _ fun ds hds => h ds (.inr hds)]
  rfl

/-- What a specifier is written as begins with a percent sign only if that is all of it. -/
theorem IsWritten.head?_ne {s : SpecifierSource} {body : Chars} (h : s.IsWritten body)
    (hne : body ≠ [CodePoint.ofChar '%']) (rest : Chars) :
    (body ++ rest).head? ≠ some (CodePoint.ofChar '%') := by
  obtain ⟨flags, width, precision, rfl, hflags, -, hwidth, -, hprecision⟩ := h
  intro hhead
  -- no part before the letter begins with a percent sign, so none is there
  have hflag : flags = [] := by
    cases flags with
    | nil => rfl
    | cons c flags =>
      obtain rfl : c = _ := Option.some.inj hhead
      exact absurd (hflags _ List.mem_cons_self) (by decide)
  subst hflag
  have hwidth' : width = [] := by
    generalize s.width = c at hwidth
    cases hwidth with
    | none => rfl
    | some h =>
      obtain ⟨c, width, rfl, hc⟩ := h.exists_cons
      obtain rfl : c = _ := Option.some.inj hhead
      exact absurd ⟨by decide, by decide⟩ hc
  subst hwidth'
  have hprecision' : precision = [] := by
    cases precision with
    | nil => rfl
    | cons c precision =>
      obtain rfl : c = _ := Option.some.inj hhead
      exact absurd (hprecision.head?_eq _ rfl) (by decide)
  subst hprecision'
  rw [Length.chars_text] at hhead hne
  cases hm : s.length with
  | none =>
    simp only [hm, List.nil_append, List.cons_append, List.head?_cons, Option.some.injEq]
      at hhead hne
    exact hne (by rw [hhead])
  | hh | h | l | ll | j | z | t | bigL =>
    simp only [hm] at hhead
    exact absurd (Option.some.inj hhead) (by decide)

end SpecifierSource

/-! ## The rules -/

/-- A percent sign before this text begins neither an escape nor a specifier. -/
def BeginsNothing (rest : Chars) : Prop :=
  rest.head? ≠ some (CodePoint.ofChar '%') ∧
    ¬∃ body tail : Chars, IsSpecifierText body ∧ rest = body ++ tail

/-- What the scan of a text that begins at an offset gives. -/
inductive ScansTo : Nat → Chars → Scan → Prop where
  | nil {offset : Nat} : ScansTo offset [] { tokens := [], failure := none }
  | char {offset : Nat} {c : CodePoint} {cs : Chars} {scan : Scan} (hc : c ≠ CodePoint.ofChar '%')
    (h : ScansTo (offset + 1) cs scan) : ScansTo offset (c :: cs) (scan.cons c offset)
  | escape {offset : Nat} {cs : Chars} {scan : Scan} (h : ScansTo (offset + 2) cs scan) :
    ScansTo offset (CodePoint.ofChar '%' :: CodePoint.ofChar '%' :: cs)
      (scan.cons (CodePoint.ofChar '%') offset)
  | specifier {offset : Nat} {s : SpecifierSource} {spec : Specifier} {body cs : Chars}
    {scan : Scan} (hs : s.IsWritten body) (hne : body ≠ [CodePoint.ofChar '%'])
    (hspec : s.toSpecifier offset = .ok spec) (h : ScansTo (offset + (1 + body.length)) cs scan) :
    ScansTo offset (CodePoint.ofChar '%' :: (body ++ cs))
      { scan with tokens := .specifier spec :: scan.tokens }
  | unreadable {offset : Nat} {s : SpecifierSource} {body cs : Chars} {e : Failure}
    (hs : s.IsWritten body) (hne : body ≠ [CodePoint.ofChar '%'])
    (hspec : s.toSpecifier offset = .error e) :
    ScansTo offset (CodePoint.ofChar '%' :: (body ++ cs)) { tokens := [], failure := some e }
  | malformed {offset : Nat} {cs : Chars} (h : BeginsNothing cs) :
    ScansTo offset (CodePoint.ofChar '%' :: cs)
      { tokens := [], failure := some (.problem (Scan.malformed offset cs)) }

/-! ## The rules and the scanner -/

namespace Scan

theorem failure_cons (scan : Scan) (c : CodePoint) (offset : Nat) :
    (scan.cons c offset).failure = scan.failure := by
  obtain ⟨tokens, failure⟩ := scan
  rcases tokens with _ | ⟨_ | _, _⟩ <;> cases failure <;> rfl

/-- Characters of a token that was already scanned are passed over. -/
theorem fromOffset_eq_drop (skip offset : Nat) (cs : Chars) (h : skip ≤ cs.length) :
    fromOffset skip offset cs = fromOffset 0 (offset + skip) (cs.drop skip) := by
  induction skip generalizing offset cs with
  | zero => rfl
  | succ skip ih =>
    cases cs with
    | nil => simp at h
    | cons c cs =>
      rw [fromOffset, ih _ _ (by simpa using h), List.drop_succ_cons]
      congr 1
      omega

theorem fromOffset_char {offset : Nat} {c : CodePoint} {cs : Chars}
    (hc : c ≠ CodePoint.ofChar '%') :
    fromOffset 0 offset (c :: cs) = (fromOffset 0 (offset + 1) cs).cons c offset := by
  rw [fromOffset]
  simp only [ne_eq, hc, not_false_eq_true, ↓reduceIte]

theorem fromOffset_escape (offset : Nat) (cs : Chars) :
    fromOffset 0 offset (CodePoint.ofChar '%' :: CodePoint.ofChar '%' :: cs) =
      (fromOffset 0 (offset + 2) cs).cons (CodePoint.ofChar '%') offset := by
  rw [fromOffset]
  simp only [ne_eq, not_true_eq_false, ↓reduceIte, List.head?_cons]
  rw [fromOffset_eq_drop 1 (offset + 1) _ (by simp)]
  rfl

theorem fromOffset_percent {offset : Nat} {cs : Chars}
    (hcs : cs.head? ≠ some (CodePoint.ofChar '%')) :
    fromOffset 0 offset (CodePoint.ofChar '%' :: cs) =
      match SpecifierSource.scan? cs with
      | none => { tokens := [], failure := some (.problem (malformed offset cs)) }
      | some (source, rest) =>
        match source.toSpecifier offset with
        | .error e => { tokens := [], failure := some e }
        | .ok s =>
          let scan := fromOffset (cs.length - rest.length) (offset + 1) cs
          { scan with tokens := .specifier s :: scan.tokens } := by
  rw [fromOffset]
  exact (if_neg (not_not_intro rfl)).trans (if_neg hcs)

end Scan

/-- A percent sign begins no specifier if and only if the scanner finds none. -/
theorem SpecifierSource.scan?_eq_none_iff {cs : Chars} :
    scan? cs = none ↔ ¬∃ body tail : Chars, IsSpecifierText body ∧ cs = body ++ tail := by
  constructor
  · rintro h ⟨body, tail, hbody, rfl⟩
    obtain ⟨s, hs⟩ := isSpecifierText_iff.1 hbody
    rw [scan?_append hs] at h
    cases h
  · intro h
    rw [Option.eq_none_iff_forall_ne_some]
    rintro ⟨s, rest⟩ hscan
    obtain ⟨body, hs, rfl⟩ := isWritten_of_scan? hscan
    exact h ⟨body, rest, isSpecifierText_iff.2 ⟨s, hs⟩, rfl⟩

namespace ScansTo

/-- Every text is scanned by the rules to what the scanner gives. -/
theorem fromOffset (offset : Nat) (cs : Chars) :
    ScansTo offset cs (Scan.fromOffset 0 offset cs) := by
  -- on the length of the text, because escapes and specifiers are passed over as a whole
  induction hn : cs.length using Nat.strongRecOn generalizing offset cs with
  | ind n ih =>
    subst hn
    cases cs with
    | nil => exact .nil
    | cons c cs =>
      by_cases hc : c = CodePoint.ofChar '%'
      case neg =>
        rw [Scan.fromOffset_char hc]
        exact .char hc (ih cs.length (by simp) _ _ rfl)
      subst hc
      by_cases hescape : cs.head? = some (CodePoint.ofChar '%')
      case pos =>
        obtain ⟨rest, rfl⟩ := List.head?_eq_some_iff.1 hescape
        rw [Scan.fromOffset_escape]
        have hlt : rest.length < (CodePoint.ofChar '%' :: CodePoint.ofChar '%' :: rest).length := by
          rw [List.length_cons, List.length_cons]
          omega
        exact .escape (ih rest.length hlt _ _ rfl)
      rw [Scan.fromOffset_percent hescape]
      cases hscan : SpecifierSource.scan? cs with
      | none => exact .malformed ⟨hescape, SpecifierSource.scan?_eq_none_iff.1 hscan⟩
      | some found =>
        obtain ⟨s, rest⟩ := found
        obtain ⟨body, hs, rfl⟩ := SpecifierSource.isWritten_of_scan? hscan
        have hne : body ≠ [CodePoint.ofChar '%'] := by
          rintro rfl
          exact hescape rfl
        cases hspec : s.toSpecifier offset with
        | error e => simpa only [hspec] using .unreadable hs hne hspec
        | ok spec =>
          have hskip : (body ++ rest).length - rest.length = body.length := by simp
          have hlt : rest.length < (CodePoint.ofChar '%' :: (body ++ rest)).length := by
            rw [List.length_cons, List.length_append]
            omega
          have hrest := ih rest.length hlt (offset + (1 + body.length)) rest rfl
          simp only [hspec, hskip]
          rw [Scan.fromOffset_eq_drop _ _ _ (by simp), List.drop_left, Nat.add_assoc]
          exact .specifier hs hne hspec hrest

/-- The rules give one scan of a text at most. -/
theorem unique {offset : Nat} {cs : Chars} {scan : Scan} (h : ScansTo offset cs scan) :
    Scan.fromOffset 0 offset cs = scan := by
  induction h with
  | nil => rfl
  | char hc _ ih => rw [Scan.fromOffset_char hc, ih]
  | escape _ ih => rw [Scan.fromOffset_escape, ih]
  | specifier hs hne hspec _ ih =>
    rw [Scan.fromOffset_percent (hs.head?_ne hne _), SpecifierSource.scan?_append hs]
    simp only [hspec]
    rw [Scan.fromOffset_eq_drop _ _ _ (by simp), ← ih]
    simp [Nat.add_assoc]
  | unreadable hs hne hspec =>
    rw [Scan.fromOffset_percent (hs.head?_ne hne _), SpecifierSource.scan?_append hs]
    simp only [hspec]
  | malformed h =>
    rw [Scan.fromOffset_percent h.1, SpecifierSource.scan?_eq_none_iff.2 h.2]

end ScansTo

theorem scansTo_iff {offset : Nat} {cs : Chars} {scan : Scan} :
    ScansTo offset cs scan ↔ Scan.fromOffset 0 offset cs = scan :=
  ⟨ScansTo.unique, fun h => h ▸ .fromOffset offset cs⟩

/-! ## Literal text -/

/-- All characters of literal text have a property. -/
def Token.All (P : CodePoint → Prop) : Token → Prop
  | .literal cs _ => ∀ c ∈ cs, P c
  | .specifier _ => True

/-- A literal character before other text has a property, and so has the literal text. -/
theorem Scan.all_cons {P : CodePoint → Prop} {scan : Scan} {c : CodePoint} (hc : P c)
    (h : ∀ t ∈ scan.tokens, t.All P) (offset : Nat) :
    ∀ t ∈ (scan.cons c offset).tokens, t.All P := by
  obtain ⟨tokens, failure⟩ := scan
  have hsingle : Token.All P (.literal [c] offset) := List.forall_mem_singleton.2 hc
  cases tokens with
  | nil =>
    cases failure with
    | none => exact List.forall_mem_singleton.2 hsingle
    | some e => exact h
  | cons token tokens =>
    cases token with
    | specifier s => exact List.forall_mem_cons.2 ⟨hsingle, h⟩
    | literal text n =>
      obtain ⟨htext, htokens⟩ := List.forall_mem_cons.1 h
      exact List.forall_mem_cons.2 ⟨List.forall_mem_cons.2 ⟨hc, htext⟩, htokens⟩

/-- Literal text is made of characters of the template. -/
theorem ScansTo.all {P : CodePoint → Prop} {offset : Nat} {cs : Chars} {scan : Scan}
    (h : ScansTo offset cs scan) (hcs : ∀ c ∈ cs, P c) : ∀ t ∈ scan.tokens, t.All P := by
  induction h with
  | nil => simp
  | char _ _ ih =>
    obtain ⟨hc, hrest⟩ := List.forall_mem_cons.1 hcs
    exact Scan.all_cons hc (ih hrest) _
  | escape _ ih =>
    obtain ⟨hc, hrest⟩ := List.forall_mem_cons.1 hcs
    exact Scan.all_cons hc (ih (List.forall_mem_cons.1 hrest).2) _
  | specifier _ _ _ _ ih =>
    have hrest := (List.forall_mem_append.1 (List.forall_mem_cons.1 hcs).2).2
    exact List.forall_mem_cons.2 ⟨trivial, ih hrest⟩
  | unreadable => simp
  | malformed => simp

end UnitText
