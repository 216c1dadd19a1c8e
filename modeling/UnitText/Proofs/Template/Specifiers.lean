import UnitText.Proofs.Template.Scanning

/-!
# The specifiers of a template

A specifier that was scanned knows where its percent sign stands. Whatever is written behind a text,
the tokens of the text up to a specifier stay what they are: only literal text can go on, and only a
percent sign behind all specifiers can come to begin something.

## Main definitions

- `Scan.Keeps` — a scan that has the specifiers of another one, and all tokens before them

## Main statements

- `ScansTo.percent_of_mem` — where a specifier stands
- `Scan.keeps_append` — the scan of a text that goes on
-/

namespace UnitText

namespace Scan

/-- Every specifier of the first scan stands in the second one, behind the same tokens. -/
def Keeps (scan scan' : Scan) : Prop :=
  ∀ (front : List Token) (s : Specifier), front ++ [.specifier s] <+: scan.tokens →
    front ++ [.specifier s] <+: scan'.tokens

theorem keeps_of_tokens_eq_nil {scan : Scan} (h : scan.tokens = []) (scan' : Scan) :
    scan.Keeps scan' := by
  intro front s hfront
  simp [h] at hfront

theorem Keeps.specifier {scan scan' : Scan} (h : scan.Keeps scan') (s : Specifier) :
    Keeps { scan with tokens := .specifier s :: scan.tokens }
      { scan' with tokens := .specifier s :: scan'.tokens } := by
  rintro (_ | ⟨t, front⟩) s' hfront
  · obtain ⟨hs, -⟩ := List.cons_prefix_cons.1 hfront
    exact List.cons_prefix_cons.2 ⟨hs, List.nil_prefix⟩
  · obtain ⟨rfl, hrest⟩ := List.cons_prefix_cons.1 hfront
    exact List.cons_prefix_cons.2 ⟨rfl, h front s' hrest⟩

/-- A literal character before both texts joins the literal text that both begin with, or stands
before the specifier that both begin with. -/
theorem Keeps.cons {scan scan' : Scan} (h : scan.Keeps scan') (c : CodePoint) (offset : Nat) :
    (scan.cons c offset).Keeps (scan'.cons c offset) := by
  obtain ⟨tokens, failure⟩ := scan
  obtain ⟨tokens', failure'⟩ := scan'
  rcases tokens with _ | ⟨⟨text, n⟩ | u, tokens⟩
  · -- there is no specifier in the first text
    rintro front s hfront
    cases failure with
    | none =>
      have hmem : Token.specifier s ∈ [.literal [c] offset] := hfront.subset (by simp)
      simp at hmem
    | some e =>
      have hmem : Token.specifier s ∈ [] := hfront.subset (by simp)
      cases hmem
  · rintro (_ | ⟨t, front⟩) s hfront
    · obtain ⟨ht, -⟩ := List.cons_prefix_cons.1 hfront
      cases ht
    · obtain ⟨rfl, hrest⟩ := List.cons_prefix_cons.1 hfront
      obtain ⟨_, hkept⟩ := h (.literal text n :: front) s (List.cons_prefix_cons.2 ⟨rfl, hrest⟩)
      cases hkept
      exact List.cons_prefix_cons.2 ⟨rfl, List.prefix_append _ _⟩
  · rintro (_ | ⟨t, front⟩) s hfront
    · obtain ⟨ht, -⟩ := List.cons_prefix_cons.1 hfront
      cases ht
    · obtain ⟨rfl, hrest⟩ := List.cons_prefix_cons.1 hfront
      have hkept := h front s hrest
      obtain ⟨rest, rfl⟩ : ∃ rest, tokens' = .specifier u :: rest := by
        obtain ⟨rest, hrest⟩ := h [] u (List.cons_prefix_cons.2 ⟨rfl, List.nil_prefix⟩)
        exact ⟨rest, hrest.symm⟩
      exact List.cons_prefix_cons.2 ⟨rfl, hkept⟩

/-- A literal character before a text is no specifier. -/
theorem specifier_mem_cons {scan : Scan} {s : Specifier} {c : CodePoint} {offset : Nat} :
    .specifier s ∈ (scan.cons c offset).tokens ↔ .specifier s ∈ scan.tokens := by
  obtain ⟨tokens, failure⟩ := scan
  rcases tokens with _ | ⟨⟨text, n⟩ | u, tokens⟩
  · cases failure <;> simp [cons]
  · simp [cons]
  · simp [cons]

end Scan

namespace ScansTo

/-- What is written behind a text does not matter to the specifiers in it. -/
theorem exists_keeps {offset : Nat} {cs : Chars} {scan : Scan} (h : ScansTo offset cs scan)
    (ds : Chars) : ∃ scan', ScansTo offset (cs ++ ds) scan' ∧ scan.Keeps scan' := by
  induction h with
  | nil => exact ⟨_, .fromOffset _ _, Scan.keeps_of_tokens_eq_nil rfl _⟩
  | char hc _ ih =>
    obtain ⟨scan', hscan', hkeeps⟩ := ih
    exact ⟨_, .char hc hscan', hkeeps.cons _ _⟩
  | escape _ ih =>
    obtain ⟨scan', hscan', hkeeps⟩ := ih
    exact ⟨_, .escape hscan', hkeeps.cons _ _⟩
  | specifier hs hne hspec _ ih =>
    obtain ⟨scan', hscan', hkeeps⟩ := ih
    rw [List.cons_append, List.append_assoc]
    exact ⟨_, .specifier hs hne hspec hscan', hkeeps.specifier _⟩
  | unreadable | malformed => exact ⟨_, .fromOffset _ _, Scan.keeps_of_tokens_eq_nil rfl _⟩

/-- A specifier knows the place of its percent sign. -/
theorem percent_of_mem {offset : Nat} {cs : Chars} {scan : Scan} (h : ScansTo offset cs scan)
    {s : Specifier} (hs : .specifier s ∈ scan.tokens) :
    ∃ i : Nat, s.offset = some ((offset + i : Nat) : Int) ∧
      cs[i]? = some (CodePoint.ofChar '%') := by
  induction h with
  | nil | unreadable | malformed => cases hs
  | char _ _ ih =>
    obtain ⟨i, hi, hpercent⟩ := ih (Scan.specifier_mem_cons.1 hs)
    exact ⟨i + 1, by rw [hi, Nat.add_right_comm, Nat.add_assoc], hpercent⟩
  | escape _ ih =>
    obtain ⟨i, hi, hpercent⟩ := ih (Scan.specifier_mem_cons.1 hs)
    exact ⟨i + 2, by rw [hi, Nat.add_right_comm, Nat.add_assoc], hpercent⟩
  | @specifier offset source spec body cs scan _ _ hspec _ ih =>
    rcases List.mem_cons.1 hs with hs | hs
    · obtain rfl := Token.specifier.inj hs
      obtain ⟨_, _, hspec⟩ := bind_eq_ok.1 hspec
      obtain ⟨_, _, hspec⟩ := bind_eq_ok.1 hspec
      exact ⟨0, by rw [← pure_eq_ok.1 hspec]; rfl, rfl⟩
    · obtain ⟨i, hi, hpercent⟩ := ih hs
      refine ⟨1 + body.length + i, by rw [hi, Nat.add_assoc], ?_⟩
      rw [Nat.add_comm 1, Nat.add_right_comm, List.getElem?_cons_succ,
        List.getElem?_append_right (Nat.le_add_right _ _), Nat.add_sub_cancel_left, hpercent]

end ScansTo

theorem Scan.keeps_append (cs ds : Chars) : (ofChars cs).Keeps (ofChars (cs ++ ds)) := by
  obtain ⟨scan', hscan', hkeeps⟩ := (ScansTo.fromOffset 0 cs).exists_keeps ds
  rwa [ofChars, ofChars, hscan'.unique]

theorem Scan.percent_of_mem {cs : Chars} {s : Specifier} (hs : .specifier s ∈ (ofChars cs).tokens) :
    ∃ i : Nat, s.offset = some (i : Int) ∧ cs[i]? = some (CodePoint.ofChar '%') := by
  obtain ⟨i, hi, hpercent⟩ := (ScansTo.fromOffset 0 cs).percent_of_mem hs
  exact ⟨i, by rw [hi, Nat.zero_add], hpercent⟩

theorem Scan.isSome_offset {cs : Chars} {s : Specifier} (hs : .specifier s ∈ (ofChars cs).tokens) :
    s.offset.isSome := by
  obtain ⟨i, hi, -⟩ := percent_of_mem hs
  rw [hi]
  rfl

end UnitText
