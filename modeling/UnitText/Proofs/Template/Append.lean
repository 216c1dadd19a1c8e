import UnitText.Proofs.Template.Scanning

/-!
# Templates one behind the other

No token reaches from one template into the next, except literal text. So the tokens of two
templates, one behind the other, are the tokens of the first and those of the second, moved behind
it; where literal text meets literal text, the two are one token.

## Main definitions

- `Token.move` — a token at another offset
- `joinTokens` — the tokens of two texts, one behind the other

## Main statements

- `ScansTo.append` — the scan of two templates
- `Scan.ofChars_append` — the same, for the scanner
-/

namespace UnitText

/-- A specifier in a text that begins further on. -/
def Specifier.move (n : Nat) (s : Specifier) : Specifier :=
  { s with offset := s.offset.map (· + (n : Int)) }

def Token.move (n : Nat) : Token → Token
  | .literal cs offset => .literal cs (offset + n)
  | .specifier s => .specifier (s.move n)

/-- The tokens of two texts, one behind the other. -/
def joinTokens : List Token → List Token → List Token
  | [], us => us
  | .literal text offset :: ts, us =>
    match joinTokens ts us with
    | .literal text' _ :: rest => .literal (text ++ text') offset :: rest
    | rest => .literal text offset :: rest
  | .specifier s :: ts, us => .specifier s :: joinTokens ts us

/-- A scan that came to the end of a text. -/
def Scan.complete (tokens : List Token) : Scan := { tokens, failure := none }

namespace Scan

theorem cons_complete (c : CodePoint) (offset : Nat) (tokens : List Token) :
    (complete tokens).cons c offset = complete (joinTokens [.literal [c] offset] tokens) := by
  rcases tokens with _ | ⟨_ | _, _⟩ <;> rfl

theorem tokens_cons {scan : Scan} (hscan : scan.failure = none) (c : CodePoint) (offset : Nat) :
    (scan.cons c offset).tokens = joinTokens [.literal [c] offset] scan.tokens := by
  obtain ⟨tokens, failure⟩ := scan
  obtain rfl : failure = none := hscan
  exact congrArg Scan.tokens (cons_complete c offset tokens)

/-- Literal text in front of a text stays in front of what is set behind the text. -/
theorem joinTokens_assoc (text : Chars) (offset : Nat) (ts us : List Token) :
    joinTokens (joinTokens [.literal text offset] ts) us =
      joinTokens [.literal text offset] (joinTokens ts us) := by
  cases ts with
  | nil => rfl
  | cons t ts =>
    cases t with
    | specifier s => rfl
    | literal text' n =>
      simp only [joinTokens]
      rcases joinTokens ts us with _ | ⟨_ | _, _⟩ <;> simp

theorem map_move_joinTokens (n : Nat) (text : Chars) (offset : Nat) (ts : List Token) :
    (joinTokens [.literal text offset] ts).map (Token.move n) =
      joinTokens [.literal text (offset + n)] (ts.map (Token.move n)) := by
  rcases ts with _ | ⟨_ | _, _⟩ <;> rfl

end Scan

namespace SpecifierSource

/-- A specifier is read in the same way wherever it stands. -/
theorem toSpecifier_add {s : SpecifierSource} {offset : Nat} {spec : Specifier}
    (h : s.toSpecifier offset = .ok spec) (n : Nat) :
    s.toSpecifier (offset + n) = .ok (spec.move n) := by
  obtain ⟨width, hwidth, h⟩ := bind_eq_ok.1 h
  obtain ⟨precision, hprecision, h⟩ := bind_eq_ok.1 h
  rw [← pure_eq_ok.1 h, toSpecifier, hwidth, hprecision]
  rfl

end SpecifierSource

namespace ScansTo

open Scan (complete)

theorem move {offset : Nat} {cs : Chars} {scan : Scan} (h : ScansTo offset cs scan)
    (hscan : scan.failure = none) (n : Nat) :
    ScansTo (offset + n) cs (complete (scan.tokens.map (Token.move n))) := by
  induction h with
  | nil => exact .nil
  | char hc _ ih =>
    rw [Scan.failure_cons] at hscan
    have hrest := ih hscan
    rw [Nat.add_right_comm] at hrest
    rw [Scan.tokens_cons hscan, Scan.map_move_joinTokens, ← Scan.cons_complete]
    exact .char hc hrest
  | escape _ ih =>
    rw [Scan.failure_cons] at hscan
    have hrest := ih hscan
    rw [Nat.add_right_comm] at hrest
    rw [Scan.tokens_cons hscan, Scan.map_move_joinTokens, ← Scan.cons_complete]
    exact .escape hrest
  | @specifier offset s spec body cs scan hs hne hspec _ ih =>
    have hrest := ih hscan
    rw [Nat.add_right_comm] at hrest
    exact .specifier hs hne (SpecifierSource.toSpecifier_add hspec n) hrest
  | unreadable => cases hscan
  | malformed => cases hscan

/-- Two texts that can be scanned to their ends are scanned one behind the other. -/
theorem append {offset : Nat} {cs ds : Chars} {scan : Scan} {us : List Token}
    (h : ScansTo offset cs scan) (hscan : scan.failure = none)
    (h' : ScansTo (offset + cs.length) ds (complete us)) :
    ScansTo offset (cs ++ ds) (complete (joinTokens scan.tokens us)) := by
  -- the second text begins at the same place however far the first was scanned
  induction h with
  | nil => exact h'
  | char hc _ ih =>
    rw [Scan.failure_cons] at hscan
    have hrest := ih hscan (by rw [Nat.add_right_comm]; exact h')
    rw [Scan.tokens_cons hscan, Scan.joinTokens_assoc, ← Scan.cons_complete]
    exact .char hc hrest
  | escape _ ih =>
    rw [Scan.failure_cons] at hscan
    have hrest := ih hscan (by rw [Nat.add_right_comm]; exact h')
    rw [Scan.tokens_cons hscan, Scan.joinTokens_assoc, ← Scan.cons_complete]
    exact .escape hrest
  | @specifier offset s spec body cs scan hs hne hspec _ ih =>
    have hlength : offset + (CodePoint.ofChar '%' :: (body ++ cs)).length =
        offset + (1 + body.length) + cs.length := by
      simp only [List.length_cons, List.length_append]
      omega
    rw [hlength] at h'
    have hrest := ih hscan h'
    rw [List.cons_append, List.append_assoc]
    exact .specifier hs hne hspec hrest
  | unreadable => cases hscan
  | malformed => cases hscan

end ScansTo

/-- The scan of two templates, one behind the other. -/
theorem Scan.ofChars_append {cs ds : Chars} (hcs : (ofChars cs).failure = none)
    (hds : (ofChars ds).failure = none) :
    ofChars (cs ++ ds) = complete
      (joinTokens (ofChars cs).tokens ((ofChars ds).tokens.map (Token.move cs.length))) := by
  have hmoved := (ScansTo.fromOffset 0 ds).move hds cs.length
  exact ((ScansTo.fromOffset 0 cs).append hcs hmoved).unique

end UnitText
