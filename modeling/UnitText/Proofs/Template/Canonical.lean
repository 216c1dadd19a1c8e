import UnitText.Proofs.Template.Escapes
import UnitText.Proofs.Template.Stars

/-!
# The canonical text of a template

The tokens of a template can be written again: literal text with its percent signs doubled, and
specifiers in their canonical spelling, which writes each flag once and the counts in plain digits.
What is written is scanned to the same tokens, except for specifiers with a width of zero. A
template can give a width of zero only in digits other than those of ASCII, and the plain zero of
the canonical spelling is a flag.

## Main definitions

- `Token.text` — a token in its canonical spelling
- `Specifier.reread` — what the canonical spelling of a specifier is scanned to
- `Token.unplaced` — a token without its offset

## Main statements

- `Specifier.exists_isWritten` — the canonical spelling writes the parts of `Specifier.reread`
- `ScansTo.canonical` — the scan of tokens that are written again
- `Scan.canonical_scans_back` — the same for the scanner
-/

namespace UnitText

/-! ## Flags and counts -/

theorem Flags.chars_text (f : Flags) : Chars.ofString f.text =
    ((if f.left then ['-'] else []) ++ (if f.sign then ['+'] else []) ++
      (if f.space then [' '] else []) ++ (if f.alternate then ['#'] else []) ++
      (if f.zero then ['0'] else [])).map CodePoint.ofChar := by
  rw [Chars.ofString, text, String.toList_ofList]

theorem Flags.isFlag_of_mem_text {f : Flags} : ∀ c ∈ Chars.ofString f.text, c.IsFlag := by
  have hflags : ∀ l s p a z : Bool, ∀ c ∈ ((if l then ['-'] else []) ++ (if s then ['+'] else []) ++
      (if p then [' '] else []) ++ (if a then ['#'] else []) ++
      (if z then ['0'] else [])).map CodePoint.ofChar, c.IsFlag := by decide
  rw [chars_text]
  exact hflags _ _ _ _ _

/-- Flags are read back from their canonical spelling. -/
theorem Flags.ofChars_text (f : Flags) : ofChars (Chars.ofString f.text) = f := by
  have hflags : ∀ l s p a z : Bool, ofChars (((if l then ['-'] else []) ++
      (if s then ['+'] else []) ++ (if p then [' '] else []) ++ (if a then ['#'] else []) ++
      (if z then ['0'] else [])).map CodePoint.ofChar) = ⟨l, s, p, a, z⟩ := by decide
  rw [chars_text]
  exact hflags _ _ _ _ _

/-- Flags that set nothing are none. -/
theorem Flags.eq_nil_of_ofChars {cs : Chars} (h : ∀ c ∈ cs, c.IsFlag) (hcs : ofChars cs = {}) :
    cs = [] := by
  cases cs with
  | nil => rfl
  | cons c cs =>
    have hc := h c List.mem_cons_self
    simp only [CodePoint.IsFlag, List.map_cons, List.map_nil, List.mem_cons, List.not_mem_nil,
      or_false] at hc
    simp only [ofChars, Flags.mk.injEq, decide_eq_false_iff_not, List.mem_cons, not_or] at hcs
    obtain ⟨hl, hs, hp, ha, hz⟩ := hcs
    rcases hc with rfl | rfl | rfl | rfl | rfl
    · exact absurd rfl hl.1
    · exact absurd rfl hs.1
    · exact absurd rfl hp.1
    · exact absurd rfl ha.1
    · exact absurd rfl hz.1

namespace CountSource

/-- A count in plain digits, or a star. -/
def ofCount : Count → CountSource
  | .number n => ofNat n
  | .star => .star

theorem ofCount_isWritten (m : Count) : (ofCount m).IsWritten (Chars.ofString m.text) := by
  cases m with
  | number n => exact ofNat_isWritten n
  | star => exact .star

/-- A number that was read has few enough digits to be read again. -/
theorem lt_of_toCount {c : CountSource} {cs : Chars} (h : c.IsWritten cs) {n : Nat}
    (hn : c.toCount = .ok (.number n)) : n < 10 ^ Integer.digitLimit := by
  cases h with
  | star => cases hn
  | @digits cs ds hne hds =>
    rw [toCount] at hn
    split at hn
    · cases hn
    · next hlimit =>
      obtain rfl : digitsValue 10 ds = n := Count.number.inj (Except.ok.inj hn)
      have hdigits : ∀ d ∈ ds, d < 10 := by
        intro d hd
        obtain ⟨c, -, hc⟩ := List.mem_map.1 (hds ▸ List.mem_map_of_mem hd)
        exact CodePoint.lt_of_digit? hc
      exact (digitsValue_lt hdigits).trans_le (Nat.pow_le_pow_right (by decide) (by omega))

end CountSource

/-- A count that is not too long to be read from plain digits. -/
def Count.IsReadable : Count → Prop
  | number n => n < 10 ^ Integer.digitLimit
  | star => True

namespace SpecifierSource

theorem toCount?_ofCount {c : Option Count} (h : ∀ m ∈ c, m.IsReadable) :
    toCount? (c.map CountSource.ofCount) = .ok c := by
  cases c with
  | none => rfl
  | some m =>
    cases m with
    | star => rfl
    | number n =>
      have hn : n < 10 ^ Integer.digitLimit := h _ rfl
      rw [Option.map_some, CountSource.ofCount, toCount?, CountSource.toCount_ofNat hn]
      rfl

/-- Counts that were read can be read again. -/
theorem isReadable_of_toCount? {c : Option CountSource} {m : Option Count}
    (hc : ∀ d ∈ c, ∃ cs, d.IsWritten cs) (h : toCount? c = .ok m) : ∀ n ∈ m, n.IsReadable := by
  cases c with
  | none =>
    obtain rfl := Except.ok.inj h
    nofun
  | some d =>
    obtain ⟨n, hn, h⟩ := bind_eq_ok.1 h
    obtain rfl := pure_eq_ok.1 h
    obtain ⟨cs, hcs⟩ := hc d rfl
    rintro _ ⟨⟩
    cases n with
    | star => trivial
    | number n => exact CountSource.lt_of_toCount hcs hn

/-- The parts of a specifier in its canonical spelling. -/
def ofSpecifier (s : Specifier) : SpecifierSource where
  flags := s.flags
  width := s.width.map CountSource.ofCount
  precision := s.precision.map CountSource.ofCount
  length := s.length
  kind := s.kind

theorem toSpecifier_ofSpecifier {s : Specifier} (hwidth : ∀ m ∈ s.width, m.IsReadable)
    (hprecision : ∀ m ∈ s.precision, m.IsReadable) (offset : Nat) :
    (ofSpecifier s).toSpecifier offset = .ok { s with offset := some offset } := by
  rw [toSpecifier, ofSpecifier, toCount?_ofCount hwidth, toCount?_ofCount hprecision]
  rfl

/-- The counts of a specifier that was scanned can be read again. -/
theorem IsWritten.isReadable {s : SpecifierSource} {body : Chars} (h : s.IsWritten body)
    {offset : Nat} {spec : Specifier} (hspec : s.toSpecifier offset = .ok spec) :
    (∀ m ∈ spec.width, m.IsReadable) ∧ ∀ m ∈ spec.precision, m.IsReadable := by
  obtain ⟨flags, width, precision, -, -, -, hwidth, -, hprecision⟩ := h
  obtain ⟨m, hm, hspec⟩ := bind_eq_ok.1 hspec
  obtain ⟨n, hn, hspec⟩ := bind_eq_ok.1 hspec
  obtain rfl := pure_eq_ok.1 hspec
  constructor
  · refine isReadable_of_toCount? ?_ hm
    generalize s.width = c at hwidth
    rintro d rfl
    cases hwidth with
    | some hd => exact ⟨_, hd⟩
  · refine isReadable_of_toCount? ?_ hn
    generalize s.precision = c at hprecision
    rintro d rfl
    cases hprecision with
    | point => exact ⟨[CodePoint.ofChar '0'], .digits (by simp) (by decide)⟩
    | some hd => exact ⟨_, hd⟩

/-- A specifier that is nothing but the letter of the percent sign is written in one way. -/
theorem IsWritten.eq_percent {body : Chars} (h : IsWritten ⟨{}, none, none, .none, .percent⟩ body) :
    body = [CodePoint.ofChar '%'] := by
  obtain ⟨flags, width, precision, rfl, hflags, hset, hwidth, -, hprecision⟩ := h
  obtain rfl := Flags.eq_nil_of_ofChars hflags hset.symm
  cases hwidth
  cases hprecision
  rfl

end SpecifierSource

/-! ## Specifiers -/

namespace Specifier

theorem chars_text (s : Specifier) : Chars.ofString s.text = CodePoint.ofChar '%' ::
    (Chars.ofString s.flags.text ++ (Chars.ofString ((s.width.map Count.text).getD "") ++
      (Chars.ofString (match s.precision with | none => "" | some p => "." ++ p.text) ++
        (Chars.ofString s.length.text ++ [CodePoint.ofChar s.kind.letter])))) := by
  have hletter : Chars.ofString (String.singleton s.kind.letter) =
      [CodePoint.ofChar s.kind.letter] := by
    simp [Chars.ofString]
  simp only [text, Chars.ofString_append, List.append_assoc, hletter]
  rfl

/-- What the canonical spelling of a specifier is scanned to: a width of zero is taken for the flag
that is written in the same way. -/
def reread (s : Specifier) : Specifier :=
  if s.width = some (.number 0) then
    { s with width := none, flags := { s.flags with zero := true } }
  else
    s

theorem reread_of_ne {s : Specifier} (h : s.width ≠ some (.number 0)) : s.reread = s := if_neg h

theorem reread_of_eq {s : Specifier} (h : s.width = some (.number 0)) :
    s.reread = { s with width := none, flags := { s.flags with zero := true } } := if_pos h

theorem precision_reread (s : Specifier) : s.reread.precision = s.precision := by
  rw [reread]
  split <;> rfl

theorem isReadable_reread {s : Specifier} (h : ∀ m ∈ s.width, m.IsReadable) :
    ∀ m ∈ s.reread.width, m.IsReadable := by
  rw [reread]
  split
  · nofun
  · exact h

/-- The canonical spelling writes the parts of what it is scanned to. -/
theorem exists_isWritten (s : Specifier) : ∃ body, Chars.ofString s.text = CodePoint.ofChar '%' ::
    body ∧ (SpecifierSource.ofSpecifier s.reread).IsWritten body := by
  have hprecision : CountSource.IsPrecision (s.precision.map CountSource.ofCount)
      (Chars.ofString (match s.precision with | none => "" | some p => "." ++ p.text)) := by
    cases s.precision with
    | none => exact .none
    | some m =>
      rw [Chars.ofString_append]
      exact .some (CountSource.ofCount_isWritten m)
  have hnone : ∀ c ∈ ([] : Chars).head?, ¬c.IsFlag := by
    rintro _ ⟨⟩
  refine ⟨_, s.chars_text, ?_⟩
  by_cases hzero : s.width = some (.number 0)
  · -- the digit of the width is the last of the flags
    rw [reread_of_eq hzero, hzero]
    refine ⟨Chars.ofString s.flags.text ++ [CodePoint.ofChar '0'], [], _, ?_, ?_, ?_, .none, hnone,
      hprecision⟩
    · simp only [List.append_assoc, List.nil_append]
      rfl
    · exact List.forall_mem_append.2 ⟨Flags.isFlag_of_mem_text, by decide⟩
    · have hflag : Flags.ofChars [CodePoint.ofChar '0'] = { zero := true } := by decide
      rw [Flags.ofChars_append, Flags.ofChars_text, hflag]
      simp [SpecifierSource.ofSpecifier, Flags.union]
  · rw [reread_of_ne hzero]
    refine ⟨_, _, _, rfl, Flags.isFlag_of_mem_text, (Flags.ofChars_text _).symm, ?_, ?_, hprecision⟩
    · show CountSource.IsWidth (s.width.map CountSource.ofCount) _
      cases s.width with
      | none => exact .none
      | some m => exact .some (CountSource.ofCount_isWritten m)
    · cases hwidth : s.width with
      | none => exact hnone
      | some m =>
        cases m with
        | star => decide
        | number n =>
          refine CountSource.head?_decimalDigits (Nat.pos_of_ne_zero ?_)
          rintro rfl
          exact hzero hwidth

end Specifier

/-- The canonical spelling of a specifier that was scanned is no percent sign written twice. -/
theorem SpecifierSource.IsWritten.ne_percent {s : SpecifierSource} {body body' : Chars}
    (h : s.IsWritten body) (hne : body ≠ [CodePoint.ofChar '%']) {offset : Nat} {spec : Specifier}
    (hspec : s.toSpecifier offset = .ok spec)
    (h' : (ofSpecifier spec.reread).IsWritten body') : body' ≠ [CodePoint.ofChar '%'] := by
  rintro rfl
  obtain ⟨-, -, rfl⟩ := toSpecifier_eq_ok_iff.1 hspec
  -- such a text has no parts, so the specifier has none, nor has the text that it was scanned from
  have hparts : ofSpecifier (s.specifier offset).reread = ⟨{}, none, none, .none, .percent⟩ := by
    have hscan := scan?_append h' []
    exact (congrArg Prod.fst (Option.some.inj hscan)).symm
  by_cases hzero : (s.specifier offset).width = some (.number 0)
  · rw [Specifier.reread_of_eq hzero] at hparts
    have hflag : true = false := congrArg (fun t => t.flags.zero) hparts
    cases hflag
  · rw [Specifier.reread_of_ne hzero] at hparts
    obtain ⟨flags, width, precision, length, kind⟩ := s
    simp only [ofSpecifier, specifier, SpecifierSource.mk.injEq, Option.map_eq_none_iff] at hparts
    obtain ⟨rfl, rfl, rfl, rfl, rfl⟩ := hparts
    exact hne h.eq_percent

/-! ## Tokens -/

namespace Token

/-- A token in its canonical spelling. -/
def text : Token → Chars
  | .literal cs _ => doubling (CodePoint.ofChar '%') cs
  | .specifier s => Chars.ofString s.text

/-- What the canonical spelling of a token is scanned to. -/
def reread : Token → Token
  | .literal cs offset => .literal cs offset
  | .specifier s => .specifier s.reread

/-- A token without its offset. -/
def unplaced : Token → Token
  | .literal cs _ => .literal cs 0
  | .specifier s => .specifier { s with offset := none }

end Token

theorem flatMap_text_joinTokens (text : Chars) (offset : Nat) (ts : List Token) :
    (joinTokens [.literal text offset] ts).flatMap Token.text =
      doubling (CodePoint.ofChar '%') text ++ ts.flatMap Token.text := by
  rcases ts with _ | ⟨_ | _, _⟩ <;> simp [joinTokens, Token.text]

/-- Literal text in front of tokens can be joined to them before or after their offsets are left
out. -/
theorem map_joinTokens {g : Token → Token} (hliteral : ∀ cs n, g (.literal cs n) = .literal cs 0)
    (hspecifier : ∀ s, ∃ s', g (.specifier s) = .specifier s') (text : Chars) (offset : Nat)
    (ts : List Token) : (joinTokens [.literal text offset] ts).map g =
      joinTokens [.literal text 0] (ts.map g) := by
  cases ts with
  | nil => simp [joinTokens, hliteral]
  | cons t ts =>
    cases t with
    | literal cs n => simp [joinTokens, hliteral]
    | specifier s =>
      obtain ⟨s', hs'⟩ := hspecifier s
      simp [joinTokens, hliteral, hs']

open Scan (complete)

/-- What is written of some tokens is scanned to them again, up to offsets and widths of zero. -/
def ScansBack (tokens : List Token) : Prop :=
  ∀ offset, ∃ ts, ScansTo offset (tokens.flatMap Token.text) (complete ts) ∧
    ts.map Token.unplaced = tokens.map (Token.unplaced ∘ Token.reread)

namespace ScansBack

theorem nil : ScansBack [] := fun _ => ⟨[], .nil, rfl⟩

/-- A literal character goes in front of whatever the other tokens are scanned to. -/
theorem cons {tokens : List Token} (h : ScansBack tokens) (c : CodePoint) (offset : Nat) :
    ScansBack (joinTokens [.literal [c] offset] tokens) := by
  intro offset'
  obtain ⟨ts, hts, hmap⟩ := h (offset' + (doubling (CodePoint.ofChar '%') [c]).length)
  refine ⟨joinTokens [.literal [c] offset'] ts, ?_, ?_⟩
  · rw [flatMap_text_joinTokens, ← Scan.cons_complete]
    exact ScansTo.cons (isLiteral_doubling [c]) hts
  · rw [map_joinTokens (fun _ _ => rfl) fun _ => ⟨_, rfl⟩, hmap,
      map_joinTokens (fun _ _ => rfl) fun _ => ⟨_, rfl⟩]

theorem specifier {tokens : List Token} (h : ScansBack tokens) {s : SpecifierSource} {body : Chars}
    (hs : s.IsWritten body) (hne : body ≠ [CodePoint.ofChar '%']) {offset : Nat} {spec : Specifier}
    (hspec : s.toSpecifier offset = .ok spec) : ScansBack (.specifier spec :: tokens) := by
  intro offset'
  obtain ⟨body', htext, hbody'⟩ := spec.exists_isWritten
  obtain ⟨ts, hts, hmap⟩ := h (offset' + (1 + body'.length))
  obtain ⟨hwidth, hprecision⟩ := hs.isReadable hspec
  have hreread := SpecifierSource.toSpecifier_ofSpecifier (Specifier.isReadable_reread hwidth)
    (spec.precision_reread ▸ hprecision) offset'
  refine ⟨.specifier { spec.reread with offset := some offset' } :: ts, ?_, ?_⟩
  · rw [List.flatMap_cons, Token.text, htext]
    exact .specifier hbody' (hs.ne_percent hne hspec hbody') hreread hts
  · rw [List.map_cons, hmap]
    rfl

end ScansBack

/-- Tokens that were scanned are scanned again from what is written of them. -/
theorem ScansTo.scansBack {offset : Nat} {cs : Chars} {scan : Scan} (h : ScansTo offset cs scan)
    (hscan : scan.failure = none) : ScansBack scan.tokens := by
  induction h with
  | nil => exact .nil
  | char hc _ ih =>
    rw [Scan.failure_cons] at hscan
    rw [Scan.tokens_cons hscan]
    exact (ih hscan).cons _ _
  | escape _ ih =>
    rw [Scan.failure_cons] at hscan
    rw [Scan.tokens_cons hscan]
    exact (ih hscan).cons _ _
  | specifier hs hne hspec _ ih => exact (ih hscan).specifier hs hne hspec
  | unreadable => cases hscan
  | malformed => cases hscan

theorem Token.unplaced_reread_eq {t : Token} : t.reread.unplaced = t.unplaced ↔
    ∀ s, t = .specifier s → s.width ≠ some (.number 0) := by
  cases t with
  | literal cs offset => simp [reread]
  | specifier s =>
    constructor
    · rintro h _ ⟨⟩ hzero
      rw [reread, Specifier.reread_of_eq hzero] at h
      obtain hwidth : none = s.width := congrArg Specifier.width (Token.specifier.inj h)
      rw [hzero] at hwidth
      cases hwidth
    · intro h
      rw [reread, Specifier.reread_of_ne (h s rfl)]

/-- **The canonical text of a template scans back.** Write the tokens of a template that can be
scanned: literal text with its percent signs doubled, and specifiers in their canonical spelling.
The text can be scanned, and its tokens are those of the template up to their offsets, but each
specifier with a width of zero has the flag zero and no width instead. They are the same tokens
exactly if there is no such specifier. -/
theorem Scan.canonical_scans_back {cs : Chars} (h : (ofChars cs).failure = none) :
    (ofChars ((ofChars cs).tokens.flatMap Token.text)).failure = none ∧
    (ofChars ((ofChars cs).tokens.flatMap Token.text)).tokens.map Token.unplaced =
      (ofChars cs).tokens.map (Token.unplaced ∘ Token.reread) ∧
    ((ofChars ((ofChars cs).tokens.flatMap Token.text)).tokens.map Token.unplaced =
        (ofChars cs).tokens.map Token.unplaced ↔
      ∀ s, .specifier s ∈ (ofChars cs).tokens → s.width ≠ some (.number 0)) := by
  have hback : ScansBack (ofChars cs).tokens := (ScansTo.fromOffset 0 cs).scansBack h
  obtain ⟨ts, hts, hmap⟩ := hback 0
  have hscan : ofChars ((ofChars cs).tokens.flatMap Token.text) = complete ts := hts.unique
  refine ⟨by rw [hscan]; rfl, by rw [hscan]; exact hmap, ?_⟩
  rw [hscan]
  show ts.map Token.unplaced = _ ↔ _
  rw [hmap, List.map_inj_left]
  constructor
  · intro hall s hs
    exact Token.unplaced_reread_eq.1 (hall _ hs) s rfl
  · rintro hwidth t ht
    refine Token.unplaced_reread_eq.2 ?_
    rintro s rfl
    exact hwidth s ht

/-- A width of zero in Arabic digits is written as a flag, so it is lost. -/
theorem Scan.canonical_scans_back_zero_width : ¬∀ cs : Chars, (ofChars cs).failure = none →
    (ofChars ((ofChars cs).tokens.flatMap Token.text)).failure = none ∧
    (ofChars ((ofChars cs).tokens.flatMap Token.text)).tokens.map Token.unplaced =
      (ofChars cs).tokens.map Token.unplaced := by
  intro h
  have hzero := (h (Chars.ofString "%٠d") (by decide +kernel)).2
  exact absurd hzero (by decide +kernel)

/-- Flags in any order, and counts in digits of two scripts. -/
theorem Scan.canonical_scans_back_mixed_digits :
    (ofChars (Chars.ofString "5%%: %0-٠7.d%5%")).failure = none ∧
    (ofChars (Chars.ofString "5%%: %0-٠7.d%5%")).tokens.flatMap Token.text =
      Chars.ofString "5%%: %-07.0d%5%" ∧
    (ofChars (Chars.ofString "5%%: %-07.0d%5%")).tokens.map Token.unplaced =
      (ofChars (Chars.ofString "5%%: %0-٠7.d%5%")).tokens.map Token.unplaced := by
  have hscan : (ofChars (Chars.ofString "5%%: %0-٠7.d%5%")).failure = none := by decide +kernel
  have htext : (ofChars (Chars.ofString "5%%: %0-٠7.d%5%")).tokens.flatMap Token.text =
      Chars.ofString "5%%: %-07.0d%5%" := by decide +kernel
  have htokens : (ofChars (Chars.ofString "5%%: %0-٠7.d%5%")).tokens =
      [.literal (Chars.ofString "5%: ") 0,
       .specifier {
         kind := .integer .signedD, flags := { left := true, zero := true }
         width := some (.number 7), precision := some (.number 0), offset := some 5 },
       .specifier { kind := .percent, width := some (.number 5), offset := some 12 }] := by
    decide +kernel
  have hwidth : ∀ s, .specifier s ∈ (ofChars (Chars.ofString "5%%: %0-٠7.d%5%")).tokens →
      s.width ≠ some (.number 0) := by
    rw [htokens]
    simp
  refine ⟨hscan, htext, ?_⟩
  rw [← htext]
  exact (canonical_scans_back hscan).2.2.2 hwidth

end UnitText
