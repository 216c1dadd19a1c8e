import UnitText.Proofs.Template.Scanning
import Mathlib.Data.Nat.Digits.Defs

/-!
# Numbers in place of stars

A star in a template can be replaced by the number that its argument would give. A width below zero
is written as the flag that it stands for and its magnitude, and a precision below zero is left out.
A specifier is then a specifier still: a zero becomes a flag, and other digits do not run into what
stands around them.

## Main definitions

- `writeStars` — a template with numbers in place of its stars
- `SpecifierSource.Rewrites` — what becomes of the parts of a specifier

## Main statements

- `SpecifierSource.Rewrites.exists_isWritten` — what is written in place of a specifier
- `SpecifierSource.Rewrites.toSpecifier_eq_ok` — it can be read
-/

namespace UnitText

/-- Where a place in a template is. -/
inductive TemplatePlace where
  | text
  | specifier
  /-- In a specifier, behind a point that is not written yet. -/
  | point
deriving DecidableEq

/-- The place behind a character of a specifier, which the letter of a conversion ends. -/
def TemplatePlace.behind (c : CodePoint) : TemplatePlace :=
  if (Kind.ofLetter? c).isSome then .text else .specifier

/-- The text behind a place in a template, with numbers in place of its stars, in order. A precision
below zero is left out with its point. -/
def writeStars : TemplatePlace → List Int → Chars → Chars
  | .text, _, [] | .specifier, _, [] => []
  | .point, _, [] => ['.']
  | .text, ns, c :: cs => c :: writeStars (if c = '%' then .specifier else .text) ns cs
  | .specifier, ns, c :: cs =>
    if c = '*' then
      Chars.ofString (Integer.text (ns.headD 0)) ++ writeStars .specifier ns.tail cs
    else if c = '.' then writeStars .point ns cs
    else c :: writeStars (.behind c) ns cs
  | .point, ns, c :: cs =>
    if c = '*' then
      (if ns.headD 0 < 0 then []
        else CodePoint.ofChar '.' :: Chars.ofString (Integer.text (ns.headD 0))) ++
          writeStars .specifier ns.tail cs
    else '.' :: c :: writeStars (.behind c) ns cs

example : writeStars .text [-5, 7] (Chars.ofString "*%+*.*d%%*") =
    Chars.ofString "*%+-5.7d%%*" := by decide +kernel

/-! ## Characters of specifiers -/

/-- A character that stands in a specifier as it is. -/
structure CodePoint.IsPlain (c : CodePoint) : Prop where
  ne_star : c ≠ CodePoint.ofChar '*'
  ne_point : c ≠ CodePoint.ofChar '.'
  behind : TemplatePlace.behind c = .specifier

theorem CodePoint.IsFlag.isPlain {c : CodePoint} (h : c.IsFlag) : c.IsPlain := by
  have hflags : ∀ c ∈ ['-', '+', ' ', '#', '0'].map CodePoint.ofChar, c ≠ CodePoint.ofChar '*' ∧
      c ≠ CodePoint.ofChar '.' ∧ TemplatePlace.behind c = .specifier := by decide
  obtain ⟨hstar, hpoint, hbehind⟩ := hflags c h
  exact ⟨hstar, hpoint, hbehind⟩

theorem CodePoint.isPlain_of_digit? {c : CodePoint} {d : Nat} (h : c.digit? = some d) :
    c.IsPlain := by
  have hletter : ∀ k ∈ Kind.all, (CodePoint.ofChar k.letter).digit? = none := by decide
  refine ⟨?_, ?_, ?_⟩
  · rintro rfl
    cases h
  · rintro rfl
    cases h
  · cases hk : Kind.ofLetter? c with
    | none => simp [TemplatePlace.behind, hk]
    | some k =>
      rw [Kind.ofLetter?_eq_some_iff.1 hk, hletter k k.mem_all] at h
      cases h

theorem Length.isPlain_of_mem {m : Length} {c : CodePoint} (h : c ∈ Chars.ofString m.text) :
    c.IsPlain := by
  have hletters : ∀ c ∈ ['h', 'l', 'j', 'z', 't', 'L'].map CodePoint.ofChar,
      c ≠ CodePoint.ofChar '*' ∧ c ≠ CodePoint.ofChar '.' ∧
        TemplatePlace.behind c = .specifier := by decide
  have hmem : ∀ m ∈ Length.all, ∀ c ∈ Chars.ofString m.text,
      c ∈ ['h', 'l', 'j', 'z', 't', 'L'].map CodePoint.ofChar := by decide
  obtain ⟨hstar, hpoint, hbehind⟩ := hletters c (hmem m (by cases m <;> decide) c h)
  exact ⟨hstar, hpoint, hbehind⟩

theorem Kind.letter_place (k : Kind) : CodePoint.ofChar k.letter ≠ CodePoint.ofChar '*' ∧
    CodePoint.ofChar k.letter ≠ CodePoint.ofChar '.' ∧
    TemplatePlace.behind (CodePoint.ofChar k.letter) = .text := by
  have hletters : ∀ k ∈ all, CodePoint.ofChar k.letter ≠ CodePoint.ofChar '*' ∧
      CodePoint.ofChar k.letter ≠ CodePoint.ofChar '.' ∧
      TemplatePlace.behind (CodePoint.ofChar k.letter) = .text := by decide
  exact hletters k k.mem_all

section

variable {ns : List Int} {cs rest : Chars}

theorem writeStars_star (n : Int) :
    writeStars .specifier (n :: ns) (CodePoint.ofChar '*' :: cs) =
      Chars.ofString (Integer.text n) ++ writeStars .specifier ns cs := rfl

theorem writeStars_pointStar (n : Int) :
    writeStars .specifier (n :: ns) (CodePoint.ofChar '.' :: CodePoint.ofChar '*' :: cs) =
      (if n < 0 then [] else CodePoint.ofChar '.' :: Chars.ofString (Integer.text n)) ++
        writeStars .specifier ns cs := rfl

/-- Plain characters stay as they are. -/
theorem writeStars_plain (h : ∀ c ∈ cs, c.IsPlain) :
    writeStars .specifier ns (cs ++ rest) = cs ++ writeStars .specifier ns rest := by
  induction cs with
  | nil => rfl
  | cons c cs ih =>
    obtain ⟨hc, hcs⟩ := List.forall_mem_cons.1 h
    rw [List.cons_append, writeStars, if_neg hc.ne_star, if_neg hc.ne_point, hc.behind, ih hcs,
      List.cons_append]

/-- A point before anything but a star stays. -/
theorem writeStars_point {c : CodePoint} (hstar : c ≠ CodePoint.ofChar '*')
    (hpoint : c ≠ CodePoint.ofChar '.') :
    writeStars .specifier ns (CodePoint.ofChar '.' :: c :: cs) =
      CodePoint.ofChar '.' :: writeStars .specifier ns (c :: cs) := by
  have hne : CodePoint.ofChar '.' ≠ CodePoint.ofChar '*' := by decide
  rw [writeStars, if_neg hne, if_pos rfl, writeStars, if_neg hstar, writeStars, if_neg hstar,
    if_neg hpoint]

/-- The end of a specifier stays as it is, and literal text follows. -/
theorem writeStars_type (m : Length) (k : Kind) (ns : List Int) (rest : Chars) :
    writeStars .specifier ns (Chars.ofString m.text ++ CodePoint.ofChar k.letter :: rest) =
      Chars.ofString m.text ++ CodePoint.ofChar k.letter :: writeStars .text ns rest := by
  obtain ⟨hstar, hpoint, hbehind⟩ := k.letter_place
  rw [writeStars_plain fun c => Length.isPlain_of_mem, writeStars, if_neg hstar, if_neg hpoint,
    hbehind]

end

theorem exists_type_eq_cons (m : Length) (k : Kind) (rest : Chars) : ∃ d tail,
    Chars.ofString m.text ++ CodePoint.ofChar k.letter :: rest = d :: tail ∧
      d ≠ CodePoint.ofChar '*' ∧ d ≠ CodePoint.ofChar '.' := by
  cases htext : Chars.ofString m.text with
  | nil => exact ⟨_, _, rfl, k.letter_place.1, k.letter_place.2.1⟩
  | cons d tail =>
    have hd : d.IsPlain := Length.isPlain_of_mem (htext ▸ List.mem_cons_self)
    exact ⟨d, _, rfl, hd.ne_star, hd.ne_point⟩

/-! ## Numbers as counts -/

/-- The count that writes a number. -/
def CountSource.ofNat (n : Nat) : CountSource :=
  .digits (digitRun ((decimalDigits n).map CodePoint.ofChar)).1

namespace CountSource

theorem exists_ofNat (n : Nat) : ∃ ds, DigitsOf 10 n ds ∧ ofNat n = .digits ds ∧
    decimalDigits n = ds.map Nat.digitChar ∧
    ((decimalDigits n).map CodePoint.ofChar).map CodePoint.digit? = ds.map some := by
  obtain ⟨ds, hds, hdigits⟩ := exists_radixDigits (by decide : 1 < 10) n
  have hdecimal : decimalDigits n = ds.map Nat.digitChar := by
    rw [decimalDigits_eq]
    exact hdigits
  have hmap : ((decimalDigits n).map CodePoint.ofChar).map CodePoint.digit? = ds.map some := by
    rw [hdecimal]
    exact map_digit?_of_radixDigit? (hds.map_radixDigit? (by decide) fun d => .inl rfl)
  refine ⟨ds, hds, ?_, hdecimal, hmap⟩
  have hrun : digitRun (((decimalDigits n).map CodePoint.ofChar) ++ []) = (ds, []) :=
    digitRun_append hmap nofun
  rw [List.append_nil] at hrun
  rw [ofNat, hrun]

theorem count_ofNat (n : Nat) : (ofNat n).count = .number n := by
  obtain ⟨ds, hds, hofNat, -, -⟩ := exists_ofNat n
  rw [hofNat, count, hds.value]

theorem ofNat_isWritten (n : Nat) :
    (ofNat n).IsWritten ((decimalDigits n).map CodePoint.ofChar) := by
  obtain ⟨ds, hds, hofNat, hdecimal, hmap⟩ := exists_ofNat n
  rw [hofNat]
  refine .digits ?_ hmap
  rw [hdecimal]
  simpa using hds.ne_nil

/-- A number other than zero does not begin with a flag. -/
theorem head?_decimalDigits {n : Nat} (hn : 0 < n) :
    ∀ c ∈ ((decimalDigits n).map CodePoint.ofChar).head?, ¬c.IsFlag := by
  obtain ⟨ds, hds, -, hdecimal, -⟩ := exists_ofNat n
  obtain ⟨d, rest, rfl⟩ := List.exists_cons_of_ne_nil hds.ne_nil
  intro c hc hflag
  rw [hdecimal] at hc
  obtain rfl : CodePoint.ofChar d.digitChar = c := Option.some.inj hc
  -- of the flags, only the zero is a digit
  have hzero : ∀ d < 10, (CodePoint.ofChar d.digitChar).IsFlag → d = 0 := by decide
  obtain rfl := hzero d (hds.lt d List.mem_cons_self) hflag
  have hvalue := hds.value
  rw [hds.canonical rfl] at hvalue
  have : digitsValue 10 [0] = 0 := rfl
  omega

theorem toCount_ofNat {n : Nat} (hn : n < 10 ^ Integer.digitLimit) :
    (ofNat n).toCount = .ok (.number n) := by
  obtain ⟨ds, hds, hofNat, hdecimal, -⟩ := exists_ofNat n
  have hlength : ds.length ≤ Integer.digitLimit := by
    have hle : (Nat.toDigits 10 n).length ≤ Integer.digitLimit :=
      Nat.toDigits_length _ _ _ (by decide) hn
    rw [← decimalDigits_eq, hdecimal, List.length_map] at hle
    exact hle
  rw [hofNat, toCount_eq_ok, ← hofNat, count_ofNat]
  rintro _ ⟨⟩
  exact hlength

end CountSource

theorem ofString_text_nat (n : Nat) :
    Chars.ofString (Integer.text n) = (decimalDigits n).map CodePoint.ofChar := by
  have hn : ¬(n : Int) < 0 := by omega
  rw [Integer.text, if_neg hn, Int.natAbs_natCast]
  rfl

theorem ofString_text_neg {n : Nat} (hn : 0 < n) : Chars.ofString (Integer.text (-n)) =
    CodePoint.ofChar '-' :: (decimalDigits n).map CodePoint.ofChar := by
  have hneg : -(n : Int) < 0 := by omega
  rw [Integer.text, if_pos hneg, Int.natAbs_neg, Int.natAbs_natCast, Chars.ofString,
    String.toList_append]
  rfl

/-! ## What becomes of a specifier -/

namespace CountSource

/-- What becomes of a width when numbers are put in place of stars: flags before it, and the width
that is left. -/
inductive RewritesWidth : Option CountSource → List Int → Chars → Option CountSource → Prop where
  | keep {c : Option CountSource} (hc : c ≠ some .star) : RewritesWidth c [] [] c
  | left {n : Nat} (hn : 0 < n) (hlt : n < 10 ^ 20) :
    RewritesWidth (some .star) [-n] [CodePoint.ofChar '-'] (some (ofNat n))
  | zero : RewritesWidth (some .star) [0] [CodePoint.ofChar '0'] none
  | number {n : Nat} (hn : 0 < n) (hlt : n < 10 ^ 20) :
    RewritesWidth (some .star) [n] [] (some (ofNat n))

/-- What becomes of a precision. -/
inductive RewritesPrecision : Option CountSource → List Int → Option CountSource → Prop where
  | keep {c : Option CountSource} (hc : c ≠ some .star) : RewritesPrecision c [] c
  | removed {n : Int} (hn : n < 0) : RewritesPrecision (some .star) [n] none
  | number {n : Nat} (hlt : n < 10 ^ 20) : RewritesPrecision (some .star) [n] (some (ofNat n))

variable {c c' : Option CountSource} {ns : List Int} {extra : Chars}

theorem IsWritten.isPlain {d : CountSource} {cs : Chars} (h : d.IsWritten cs) (hd : d ≠ .star) :
    ∀ c ∈ cs, c.IsPlain := by
  cases h with
  | star => exact absurd rfl hd
  | @digits cs ds _ hds =>
    intro c hc
    obtain ⟨n, -, hn⟩ := List.mem_map.1 (hds ▸ List.mem_map_of_mem hc)
    exact CodePoint.isPlain_of_digit? hn.symm

theorem eq_star_of_isWidth {cs : Chars} (h : IsWidth (some .star) cs) :
    cs = [CodePoint.ofChar '*'] := by
  cases h with
  | some h =>
    cases h
    rfl

theorem eq_star_of_isPrecision {cs : Chars} (h : IsPrecision (some .star) cs) :
    cs = [CodePoint.ofChar '.', CodePoint.ofChar '*'] := by
  cases h with
  | some h =>
    cases h
    rfl

theorem RewritesWidth.isFlag (h : RewritesWidth c ns extra c') : ∀ x ∈ extra, x.IsFlag := by
  cases h <;> decide

/-- The text of a width becomes the text of what is left of it, behind flags. -/
theorem RewritesWidth.exists_isWidth (h : RewritesWidth c ns extra c') {width : Chars}
    (hwidth : IsWidth c width) (hcanon : ∀ x ∈ width.head?, ¬x.IsFlag) :
    ∃ width', IsWidth c' width' ∧ (∀ x ∈ width'.head?, ¬x.IsFlag) ∧ ∀ ks rest,
      writeStars .specifier (ns ++ ks) (width ++ rest) =
        extra ++ (width' ++ writeStars .specifier ks rest) := by
  cases h with
  | keep hc =>
    cases hwidth with
    | none => exact ⟨[], .none, nofun, fun ks rest => rfl⟩
    | some h =>
      have hplain := h.isPlain fun hd => hc (congrArg some hd)
      exact ⟨width, .some h, hcanon, fun ks rest => writeStars_plain hplain⟩
  | @left n hn hlt =>
    obtain rfl := eq_star_of_isWidth hwidth
    refine ⟨_, .some (ofNat_isWritten n), head?_decimalDigits hn, fun ks rest => ?_⟩
    rw [List.singleton_append, List.singleton_append, writeStars_star, ofString_text_neg hn]
    rfl
  | zero =>
    obtain rfl := eq_star_of_isWidth hwidth
    refine ⟨[], .none, nofun, fun ks rest => ?_⟩
    have hzero : Chars.ofString (Integer.text 0) = [CodePoint.ofChar '0'] := by decide +kernel
    rw [List.singleton_append, List.singleton_append, writeStars_star, hzero]
    rfl
  | @number n hn hlt =>
    obtain rfl := eq_star_of_isWidth hwidth
    refine ⟨_, .some (ofNat_isWritten n), head?_decimalDigits hn, fun ks rest => ?_⟩
    rw [List.singleton_append, List.singleton_append, writeStars_star, ofString_text_nat]
    rfl

/-- The text of a precision becomes the text of what is left of it. -/
theorem RewritesPrecision.exists_isPrecision (h : RewritesPrecision c ns c') {precision : Chars}
    (hprecision : IsPrecision c precision) :
    ∃ precision', IsPrecision c' precision' ∧ ∀ ks d rest, d ≠ CodePoint.ofChar '*' →
      d ≠ CodePoint.ofChar '.' → writeStars .specifier (ns ++ ks) (precision ++ d :: rest) =
        precision' ++ writeStars .specifier ks (d :: rest) := by
  cases h with
  | keep hc =>
    cases hprecision with
    | none => exact ⟨[], .none, fun ks d rest _ _ => rfl⟩
    | point => exact ⟨_, .point, fun ks d rest => writeStars_point⟩
    | @some source cs h =>
      have hplain := h.isPlain fun hd => hc (congrArg some hd)
      refine ⟨_, .some h, fun ks d rest _ _ => ?_⟩
      obtain ⟨x, tail, rfl, -⟩ := h.exists_cons
      have hx := hplain x List.mem_cons_self
      rw [List.cons_append, List.cons_append, writeStars_point hx.ne_star hx.ne_point,
        List.nil_append, List.cons_append, ← List.cons_append, writeStars_plain hplain]
  | @removed n hn =>
    obtain rfl := eq_star_of_isPrecision hprecision
    refine ⟨[], .none, fun ks d rest _ _ => ?_⟩
    rw [List.singleton_append, List.cons_append, List.singleton_append, writeStars_pointStar,
      if_pos hn]
  | @number n hlt =>
    obtain rfl := eq_star_of_isPrecision hprecision
    have hn : ¬(n : Int) < 0 := by omega
    refine ⟨_, .some (ofNat_isWritten n), fun ks d rest _ _ => ?_⟩
    rw [List.singleton_append, List.cons_append, List.singleton_append, writeStars_pointStar,
      if_neg hn, ofString_text_nat]

end CountSource

namespace SpecifierSource

/-- What becomes of the parts of a specifier when numbers are put in place of its stars. -/
inductive Rewrites (s : SpecifierSource) : List Int → SpecifierSource → Prop where
  | intro {ns ks : List Int} {extra : Chars} {width precision : Option CountSource}
    (hwidth : CountSource.RewritesWidth s.width ns extra width)
    (hprecision : CountSource.RewritesPrecision s.precision ks precision) :
    Rewrites s (ns ++ ks) { s with flags := s.flags.union (.ofChars extra), width, precision }

variable {s t : SpecifierSource} {ns : List Int}

theorem Rewrites.kind_eq (h : s.Rewrites ns t) : t.kind = s.kind := by
  cases h
  rfl

/-- The text of a specifier becomes the text of what becomes of its parts. -/
theorem Rewrites.exists_isWritten (h : s.Rewrites ns t) {body : Chars} (hs : s.IsWritten body) :
    ∃ body', t.IsWritten body' ∧ ∀ ks rest,
      writeStars .specifier (ns ++ ks) (body ++ rest) = body' ++ writeStars .text ks rest := by
  obtain ⟨flags, width, precision, rfl, hflags, hset, hwidth, hcanon, hprecision⟩ := hs
  obtain @⟨ns, ms, extra, _, _, hrewrite, hrewrite'⟩ := h
  obtain ⟨width', hwidth', hcanon', hwriteWidth⟩ := hrewrite.exists_isWidth hwidth hcanon
  obtain ⟨precision', hprecision', hwritePrecision⟩ := hrewrite'.exists_isPrecision hprecision
  refine ⟨_, ⟨flags ++ extra, width', precision', rfl,
    List.forall_mem_append.2 ⟨hflags, hrewrite.isFlag⟩, ?_, hwidth', hcanon', hprecision'⟩, ?_⟩
  · rw [Flags.ofChars_append, ← hset]
  · intro ks rest
    obtain ⟨d, tail, htype, hstar, hpoint⟩ := exists_type_eq_cons s.length s.kind rest
    simp only [List.append_assoc, List.singleton_append]
    rw [writeStars_plain fun c hc => (hflags c hc).isPlain, hwriteWidth, htype,
      hwritePrecision _ _ _ hstar hpoint, ← htype, writeStars_type]

/-- A count that can be read is read as what it writes. -/
theorem toCount?_eq_ok {c : Option CountSource} {m : Option Count} (h : toCount? c = .ok m) :
    m = c.map CountSource.count := by
  cases c with
  | none => exact (Except.ok.inj h).symm
  | some c =>
    obtain ⟨n, hn, h⟩ := bind_eq_ok.1 h
    obtain rfl := pure_eq_ok.1 h
    cases c with
    | star => exact congrArg some (Except.ok.inj hn).symm
    | digits ds =>
      rw [CountSource.toCount] at hn
      split at hn
      · cases hn
      · exact congrArg some (Except.ok.inj hn).symm

theorem toSpecifier_eq_ok_iff {offset : Nat} {spec : Specifier} :
    s.toSpecifier offset = .ok spec ↔ toCount? s.width = .ok (s.width.map CountSource.count) ∧
      toCount? s.precision = .ok (s.precision.map CountSource.count) ∧
      s.specifier offset = spec := by
  constructor
  · intro h
    obtain ⟨width, hwidth, h⟩ := bind_eq_ok.1 h
    obtain ⟨precision, hprecision, h⟩ := bind_eq_ok.1 h
    obtain rfl := toCount?_eq_ok hwidth
    obtain rfl := toCount?_eq_ok hprecision
    exact ⟨hwidth, hprecision, pure_eq_ok.1 h⟩
  · rintro ⟨hwidth, hprecision, rfl⟩
    exact bind_eq_ok.2 ⟨_, hwidth, bind_eq_ok.2 ⟨_, hprecision, rfl⟩⟩

/-- Numbers that are put in place of stars can be read. -/
theorem Rewrites.toSpecifier_eq_ok (h : s.Rewrites ns t) {offset : Nat} {spec : Specifier}
    (hspec : s.toSpecifier offset = .ok spec) (offset' : Nat) :
    t.toSpecifier offset' = .ok (t.specifier offset') := by
  obtain ⟨hwidth, hprecision, -⟩ := toSpecifier_eq_ok_iff.1 hspec
  obtain ⟨hrewrite, hrewrite'⟩ := h
  obtain ⟨flags, width, precision, length, kind⟩ := s
  have hofNat : ∀ n < 10 ^ 20,
      toCount? (some (.ofNat n)) = .ok (some (CountSource.ofNat n).count) := by
    intro n hn
    have hlimit : n < 10 ^ Integer.digitLimit :=
      hn.trans_le (Nat.pow_le_pow_right (by decide) (by decide))
    rw [toCount?, CountSource.toCount_ofNat hlimit, CountSource.count_ofNat]
    rfl
  refine toSpecifier_eq_ok_iff.2 ⟨?_, ?_, rfl⟩
  · cases hrewrite with
    | keep => exact hwidth
    | left _ hlt | number _ hlt => exact hofNat _ hlt
    | zero => rfl
  · cases hrewrite' with
    | keep => exact hprecision
    | removed => rfl
    | number hlt => exact hofNat _ hlt

end SpecifierSource

end UnitText
