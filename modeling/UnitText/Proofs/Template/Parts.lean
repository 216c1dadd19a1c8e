import UnitText.Proofs.Numeral.Digits
import UnitText.Proofs.Template.Grammar
import Mathlib.Data.List.TakeWhile

/-!
# The scanner of specifiers

Each part of a specifier is scanned as long as possible, and no part gives anything back to the one
before it. What is scanned is nevertheless exactly what the grammar says, because no part can begin
with a character that continues the part before it.

## Main statements

- `SpecifierSource.scan?_eq_some_iff` — what is scanned, and what is left
- `isSpecifierText_iff` — every text of a specifier writes its parts in one way
-/

namespace UnitText

/-! ## Flags -/

def Flags.union (f g : Flags) : Flags where
  left := f.left || g.left
  sign := f.sign || g.sign
  space := f.space || g.space
  alternate := f.alternate || g.alternate
  zero := f.zero || g.zero

namespace Flags

@[simp] theorem ofChars_nil : ofChars [] = {} := by simp [ofChars]

@[simp] theorem union_empty (f : Flags) : f.union {} = f := by simp [union]

@[simp] theorem empty_union (f : Flags) : Flags.union {} f = f := by simp [union]

theorem union_assoc (f g h : Flags) : (f.union g).union h = f.union (g.union h) := by
  simp [union, Bool.or_assoc]

theorem ofChars_append (cs ds : Chars) : ofChars (cs ++ ds) = (ofChars cs).union (ofChars ds) := by
  simp [ofChars, union]

theorem insert?_eq (f : Flags) (c : CodePoint) :
    f.insert? c = if c.IsFlag then some (f.union (ofChars [c])) else none := by
  by_cases hc : c.IsFlag
  · rw [if_pos hc]
    simp only [CodePoint.IsFlag, List.map_cons, List.map_nil, List.mem_cons, List.not_mem_nil,
      or_false] at hc
    rcases hc with rfl | rfl | rfl | rfl | rfl
    all_goals
      obtain ⟨l, s, p, a, z⟩ := f
      simp [insert?, union, ofChars, CodePoint.ext_iff]
  · rw [if_neg hc]
    simp only [CodePoint.IsFlag, List.map_cons, List.map_nil, List.mem_cons, List.not_mem_nil,
      or_false, not_or] at hc
    simp [insert?, hc]

/-- Flags are scanned up to the first character that is none. -/
theorem scan_append {flags rest : Chars} (hflags : ∀ c ∈ flags, c.IsFlag)
    (hrest : ∀ c ∈ rest.head?, ¬c.IsFlag) (f : Flags) :
    scan f (flags ++ rest) = (f.union (ofChars flags), rest) := by
  induction flags generalizing f with
  | nil =>
    cases rest with
    | nil => simp [scan]
    | cons c rest =>
      have hc : ¬c.IsFlag := hrest c rfl
      simp [scan, insert?_eq, hc]
  | cons c flags ih =>
    rw [List.forall_mem_cons] at hflags
    rw [List.cons_append, scan, insert?_eq, if_pos hflags.1]
    simp only
    rw [ih hflags.2, union_assoc, ← ofChars_append, List.singleton_append]

/-- Every text begins with flags, up to the first character that is none. -/
theorem exists_flags_append (cs : Chars) :
    ∃ flags rest, cs = flags ++ rest ∧ (∀ c ∈ flags, c.IsFlag) ∧ ∀ c ∈ rest.head?, ¬c.IsFlag := by
  refine ⟨cs.takeWhile fun c => decide c.IsFlag, cs.dropWhile fun c => decide c.IsFlag,
    List.takeWhile_append_dropWhile.symm, fun c hc => ?_, fun c hc => ?_⟩
  · simpa using List.mem_takeWhile_imp hc
  · have h := List.head?_dropWhile_not (fun c : CodePoint => decide c.IsFlag) cs
    simp_all

theorem scan_spec (cs : Chars) :
    ∃ flags, cs = flags ++ (scan {} cs).2 ∧ (∀ c ∈ flags, c.IsFlag) ∧
      (scan {} cs).1 = ofChars flags ∧ ∀ c ∈ (scan {} cs).2.head?, ¬c.IsFlag := by
  obtain ⟨flags, rest, rfl, hflags, hrest⟩ := exists_flags_append cs
  rw [scan_append hflags hrest, empty_union]
  exact ⟨flags, rfl, hflags, rfl, hrest⟩

end Flags

/-! ## Widths and precisions -/

theorem digit?_star : (CodePoint.ofChar '*').digit? = none := by decide

namespace CountSource

/-- Characters that neither are a count nor continue one. -/
def Ends (c : CodePoint) : Prop := c ≠ CodePoint.ofChar '*' ∧ c.digit? = none

/-- A count begins with a character that begins counts. -/
theorem IsWritten.exists_cons {c : CountSource} {cs : Chars} (h : c.IsWritten cs) :
    ∃ d tail, cs = d :: tail ∧ ¬Ends d := by
  cases h with
  | star => exact ⟨_, _, rfl, fun h => h.1 rfl⟩
  | @digits cs ds hne hds =>
    obtain ⟨d, tail, rfl⟩ := List.exists_cons_of_ne_nil hne
    cases ds with
    | nil => simp at hds
    | cons n ds =>
      simp only [List.map_cons, List.cons.injEq] at hds
      refine ⟨d, tail, rfl, fun h => ?_⟩
      rw [h.2] at hds
      exact absurd hds.1 (by simp)

theorem scan_of_ends {rest : Chars} (hrest : ∀ c ∈ rest.head?, Ends c) :
    scan rest = (none, rest) := by
  cases rest with
  | nil => rfl
  | cons c rest =>
    obtain ⟨hstar, hdigit⟩ := hrest c rfl
    have hrun : digitRun (c :: rest) = ([], c :: rest) := by rw [digitRun, hdigit]
    rw [scan, if_neg hstar]
    simp only [hrun, ↓reduceIte]

/-- A count is scanned up to the first character that does not continue it. -/
theorem scan_append {c : CountSource} {cs rest : Chars} (h : c.IsWritten cs)
    (hrest : ∀ c ∈ rest.head?, c.digit? = none) : scan (cs ++ rest) = (some c, rest) := by
  cases h with
  | star => rfl
  | @digits cs ds hne hds =>
    have hrun := digitRun_append hds hrest
    obtain ⟨d, tail, rfl⟩ := List.exists_cons_of_ne_nil hne
    have hds' : ds ≠ [] := by
      rintro rfl
      simp at hds
    have hstar : d ≠ CodePoint.ofChar '*' := by
      rintro rfl
      cases ds with
      | nil => exact hds' rfl
      | cons n ds => simp [digit?_star] at hds
    rw [List.cons_append] at hrun
    rw [List.cons_append, scan, if_neg hstar]
    simp only [hrun, if_neg hds']

theorem scan_spec (cs : Chars) :
    ∃ front, cs = front ++ (scan cs).2 ∧ IsWidth (scan cs).1 front := by
  cases cs with
  | nil => exact ⟨[], rfl, .none⟩
  | cons c cs =>
    by_cases hstar : c = CodePoint.ofChar '*'
    · subst hstar
      exact ⟨[CodePoint.ofChar '*'], rfl, .some .star⟩
    · obtain ⟨front, hfront, hds, _⟩ := digitRun_spec (c :: cs)
      rw [scan, if_neg hstar]
      by_cases hnil : (digitRun (c :: cs)).1 = []
      · simp only [hnil, ↓reduceIte]
        exact ⟨[], rfl, .none⟩
      · simp only [hnil, ↓reduceIte]
        refine ⟨front, hfront, .some (.digits ?_ hds)⟩
        rintro rfl
        exact hnil (by simpa using hds.symm)

theorem scan_append_of_isWidth {c : Option CountSource} {cs rest : Chars} (h : IsWidth c cs)
    (hrest : ∀ c ∈ rest.head?, Ends c) : scan (cs ++ rest) = (c, rest) := by
  cases h with
  | none => exact scan_of_ends hrest
  | some h => exact scan_append h fun c hc => (hrest c hc).2

theorem scanPrecision_append {c : Option CountSource} {cs rest : Chars} (h : IsPrecision c cs)
    (hpoint : ∀ c ∈ rest.head?, c ≠ CodePoint.ofChar '.') (hrest : ∀ c ∈ rest.head?, Ends c) :
    scanPrecision (cs ++ rest) = (c, rest) := by
  cases h with
  | none =>
    cases rest with
    | nil => rfl
    | cons c rest => rw [List.nil_append, scanPrecision, if_neg (hpoint c rfl)]
  | point =>
    rw [List.cons_append, List.nil_append, scanPrecision, if_pos rfl]
    simp only [scan_of_ends hrest, Option.getD_none]
  | some h =>
    rw [List.cons_append, scanPrecision, if_pos rfl]
    simp only [scan_append h fun c hc => (hrest c hc).2, Option.getD_some]

theorem IsPrecision.head?_eq {c : Option CountSource} {cs : Chars} (h : IsPrecision c cs) :
    ∀ d ∈ cs.head?, d = CodePoint.ofChar '.' := by
  cases h with
  | none => simp
  | point => simp
  | some _ => simp

theorem scanPrecision_spec (cs : Chars) :
    ∃ front, cs = front ++ (scanPrecision cs).2 ∧ IsPrecision (scanPrecision cs).1 front := by
  cases cs with
  | nil => exact ⟨[], rfl, .none⟩
  | cons c cs =>
    rw [scanPrecision]
    by_cases hpoint : c = CodePoint.ofChar '.'
    · subst hpoint
      obtain ⟨front, hfront, hwidth⟩ := scan_spec cs
      simp only [↓reduceIte]
      refine ⟨CodePoint.ofChar '.' :: front, by rw [List.cons_append, ← hfront], ?_⟩
      generalize (scan cs).1 = r at hwidth
      cases hwidth with
      | none => exact .point
      | some h => exact .some h
    · rw [if_neg hpoint]
      exact ⟨[], rfl, .none⟩

end CountSource

/-! ## Length modifiers and conversions -/

theorem Length.chars_text (m : Length) : Chars.ofString m.text = match m with
    | .none => []
    | .hh => [CodePoint.ofChar 'h', CodePoint.ofChar 'h']
    | .h => [CodePoint.ofChar 'h']
    | .l => [CodePoint.ofChar 'l']
    | .ll => [CodePoint.ofChar 'l', CodePoint.ofChar 'l']
    | .j => [CodePoint.ofChar 'j']
    | .z => [CodePoint.ofChar 'z']
    | .t => [CodePoint.ofChar 't']
    | .bigL => [CodePoint.ofChar 'L'] := by
  cases m <;> rfl

theorem Length.scan_append (m : Length) {c : CodePoint} {rest : Chars}
    (hc : c ∉ ['h', 'l', 'j', 'z', 't', 'L'].map CodePoint.ofChar) :
    scan (Chars.ofString m.text ++ c :: rest) = (m, c :: rest) := by
  rw [chars_text]
  simp only [List.map_cons, List.map_nil, List.mem_cons, List.not_mem_nil, or_false, not_or] at hc
  obtain ⟨h1, h2, h3, h4, h5, h6⟩ := hc
  cases m with
  | none => simp [scan, h1, h2, h3, h4, h5, h6]
  | hh => rfl
  | h => simp [scan, h1]
  | l =>
    have hl : CodePoint.ofChar 'l' ≠ CodePoint.ofChar 'h' := by decide
    simp [scan, h2, hl]
  | ll => rfl
  | j => rfl
  | z => rfl
  | t => rfl
  | bigL => rfl

theorem Length.scan_spec (cs : Chars) :
    cs = Chars.ofString (scan cs).1.text ++ (scan cs).2 := by
  rw [chars_text]
  cases cs with
  | nil => rfl
  | cons c rest =>
    simp only [scan]
    by_cases h1 : c = CodePoint.ofChar 'h'
    · subst h1
      cases rest with
      | nil => rfl
      | cons d rest => by_cases hd : d = CodePoint.ofChar 'h' <;> simp [hd]
    rw [if_neg h1]
    by_cases h2 : c = CodePoint.ofChar 'l'
    · subst h2
      cases rest with
      | nil => rfl
      | cons d rest => by_cases hd : d = CodePoint.ofChar 'l' <;> simp [hd]
    rw [if_neg h2]
    by_cases h3 : c = CodePoint.ofChar 'j'
    · simp [h3]
    rw [if_neg h3]
    by_cases h4 : c = CodePoint.ofChar 'z'
    · simp [h4]
    rw [if_neg h4]
    by_cases h5 : c = CodePoint.ofChar 't'
    · simp [h5]
    rw [if_neg h5]
    by_cases h6 : c = CodePoint.ofChar 'L'
    · simp [h6]
    · rw [if_neg h6]
      rfl

namespace Kind

theorem mem_all (k : Kind) : k ∈ all := by
  rcases k with (_ | _ | _ | _ | u | u) | ⟨_ | _ | _ | _, u⟩ | _ | _ | _ | _ | _
  all_goals try cases u
  all_goals decide

/-- A letter is the letter of one conversion at most. -/
theorem ofLetter?_eq_some_iff {c : CodePoint} {k : Kind} :
    ofLetter? c = some k ↔ c = CodePoint.ofChar k.letter := by
  have hletter : ∀ k ∈ all, ofLetter? (CodePoint.ofChar k.letter) = some k := by decide
  constructor
  · intro h
    have hc : CodePoint.ofChar k.letter = c := by simpa using List.find?_some h
    exact hc.symm
  · rintro rfl
    exact hletter k k.mem_all

/-- The letter of a conversion continues no other part of a specifier. -/
theorem letter_ends (k : Kind) :
    CodePoint.ofChar k.letter ∉ ['h', 'l', 'j', 'z', 't', 'L'].map CodePoint.ofChar := by
  have h : ∀ k ∈ all,
      CodePoint.ofChar k.letter ∉ ['h', 'l', 'j', 'z', 't', 'L'].map CodePoint.ofChar := by decide
  exact h k k.mem_all

end Kind

/-! ## Specifiers -/

/-- Characters with which a length modifier or the letter of a conversion begins. None of them is
a flag, begins a precision, or is part of a count. -/
private def beginsType (c : CodePoint) : Prop :=
  ¬c.IsFlag ∧ c ≠ CodePoint.ofChar '.' ∧ CountSource.Ends c

private theorem head?_type (m : Length) (k : Kind) (rest : Chars) :
    ∀ c ∈ (Chars.ofString m.text ++ CodePoint.ofChar k.letter :: rest).head?, beginsType c := by
  have hletter : ∀ k ∈ Kind.all, ¬(CodePoint.ofChar k.letter).IsFlag ∧
      CodePoint.ofChar k.letter ≠ CodePoint.ofChar '.' ∧
      CodePoint.ofChar k.letter ≠ CodePoint.ofChar '*' ∧
      (CodePoint.ofChar k.letter).digit? = none := by decide
  have hmodifier : ∀ c ∈ ['h', 'l', 'j', 'z', 't', 'L'].map CodePoint.ofChar, ¬c.IsFlag ∧
      c ≠ CodePoint.ofChar '.' ∧ c ≠ CodePoint.ofChar '*' ∧ c.digit? = none := by decide
  intro c hc
  rw [Length.chars_text] at hc
  cases m with
  | none =>
    obtain rfl : CodePoint.ofChar k.letter = c := Option.some.inj hc
    exact hletter k k.mem_all
  | hh | h | l | ll | j | z | t | bigL =>
    obtain rfl := Option.some.inj hc
    exact hmodifier _ (by decide)

/-- What precedes a length modifier or a letter in a specifier ends there. -/
private theorem head?_append {p : CodePoint → Prop} {cs ds : Chars} (hcs : ∀ c ∈ cs.head?, p c)
    (hds : ∀ c ∈ ds.head?, p c) : ∀ c ∈ (cs ++ ds).head?, p c := by
  cases cs with
  | nil => exact hds
  | cons c cs => exact hcs

namespace SpecifierSource

/-- The parts that a text writes are scanned from it, and nothing of what follows. -/
theorem scan?_append {s : SpecifierSource} {body : Chars} (h : s.IsWritten body) (rest : Chars) :
    scan? (body ++ rest) = some (s, rest) := by
  obtain ⟨flags, width, precision, rfl, hflags, hset, hwidth, hcanon, hprecision⟩ := h
  -- behind each part stands a character that does not continue it, where its scan stops
  have htype := head?_type s.length s.kind rest
  have hpoint := hprecision.head?_eq
  have hafterWidth : ∀ c ∈ (precision ++ (Chars.ofString s.length.text ++
      CodePoint.ofChar s.kind.letter :: rest)).head?, ¬c.IsFlag ∧ CountSource.Ends c := by
    refine head?_append (fun c hc => ?_) fun c hc => ⟨(htype c hc).1, (htype c hc).2.2⟩
    rw [hpoint c hc]
    exact ⟨by decide, by decide, by decide⟩
  have hscanFlags := Flags.scan_append hflags
    (head?_append hcanon fun c hc => (hafterWidth c hc).1) {}
  have hscanWidth := CountSource.scan_append_of_isWidth hwidth fun c hc => (hafterWidth c hc).2
  have hscanPrecision := CountSource.scanPrecision_append hprecision
    (fun c hc => (htype c hc).2.1) fun c hc => (htype c hc).2.2
  have hscanLength : Length.scan (Chars.ofString s.length.text ++ CodePoint.ofChar s.kind.letter ::
      rest) = (s.length, CodePoint.ofChar s.kind.letter :: rest) :=
    Length.scan_append s.length s.kind.letter_ends
  have hkind := Kind.ofLetter?_eq_some_iff.2 (rfl : CodePoint.ofChar s.kind.letter = _)
  simp only [List.append_assoc, List.cons_append, List.nil_append, scan?, hscanFlags, hscanWidth,
    hscanPrecision, hscanLength, hkind, Option.map_some, Flags.empty_union, ← hset]

/-- What was scanned is what the text before the rest writes. -/
theorem isWritten_of_scan? {s : SpecifierSource} {cs rest : Chars}
    (h : scan? cs = some (s, rest)) : ∃ body, s.IsWritten body ∧ cs = body ++ rest := by
  simp only [scan?] at h
  -- part by part, each with the text that it leaves to the next
  obtain ⟨flags, hcs, hflags, hset, hend⟩ := Flags.scan_spec cs
  generalize Flags.scan {} cs = scanned at *
  obtain ⟨f, cs₁⟩ := scanned
  obtain ⟨width, hcs₁, hwidth⟩ := CountSource.scan_spec cs₁
  generalize CountSource.scan cs₁ = scanned at *
  obtain ⟨w, cs₂⟩ := scanned
  obtain ⟨precision, hcs₂, hprecision⟩ := CountSource.scanPrecision_spec cs₂
  generalize CountSource.scanPrecision cs₂ = scanned at *
  obtain ⟨p, cs₃⟩ := scanned
  have hcs₃ := Length.scan_spec cs₃
  generalize Length.scan cs₃ = scanned at *
  obtain ⟨m, cs₄⟩ := scanned
  simp only at h hcs hset hend hcs₁ hwidth hcs₂ hprecision hcs₃
  cases cs₄ with
  | nil => cases h
  | cons c rest' =>
    obtain ⟨k, hk, hs⟩ := Option.map_eq_some_iff.1 h
    obtain ⟨rfl, rfl⟩ := Prod.mk.inj hs
    obtain rfl := Kind.ofLetter?_eq_some_iff.1 hk
    -- the width begins with what stopped the flags
    have hcanon : ∀ c ∈ width.head?, ¬c.IsFlag := by
      intro c hc
      apply hend c
      rw [hcs₁]
      cases width with
      | nil => cases hc
      | cons d width => exact hc
    refine ⟨_, ⟨flags, width, precision, rfl, hflags, hset, hwidth, hcanon, hprecision⟩, ?_⟩
    rw [hcs, hcs₁, hcs₂, hcs₃]
    simp only [List.append_assoc, List.cons_append, List.nil_append]

/-- **The scanner of specifiers is exact**: it finds the parts that the beginning of a text writes,
and leaves the rest. -/
theorem scan?_eq_some_iff {s : SpecifierSource} {cs rest : Chars} :
    scan? cs = some (s, rest) ↔ ∃ body, s.IsWritten body ∧ cs = body ++ rest := by
  constructor
  · exact isWritten_of_scan?
  · rintro ⟨body, h, rfl⟩
    exact scan?_append h rest

end SpecifierSource

/-- A width without its first characters is a width, or nothing. -/
theorem CountSource.IsWidth.of_append {front back : Chars} {c : Option CountSource}
    (h : IsWidth c (front ++ back)) : ∃ d, IsWidth d back := by
  induction front generalizing c with
  | nil => exact ⟨c, h⟩
  | cons a front ih =>
    have htail : ∃ d, IsWidth d (front ++ back) := by
      rw [List.cons_append] at h
      generalize front ++ back = cs at h
      cases h with
      | some h =>
        cases h with
        | star => exact ⟨_, .none⟩
        | @digits _ ds _ hds =>
          cases ds with
          | nil => simp at hds
          | cons n ds =>
            simp only [List.map_cons, List.cons.injEq] at hds
            by_cases hcs : cs = []
            · subst hcs
              exact ⟨_, .none⟩
            · exact ⟨_, .some (.digits hcs hds.2)⟩
    obtain ⟨d, hd⟩ := htail
    exact ih hd

/-- A text of a specifier writes parts, once the zeros before its width are read as flags. -/
theorem isSpecifierText_iff {cs : Chars} :
    IsSpecifierText cs ↔ ∃ s : SpecifierSource, s.IsWritten cs := by
  constructor
  · rintro ⟨flags, width, precision, m, k, rfl, hflags, ⟨c, hwidth⟩, ⟨p, hprecision⟩⟩
    -- a width that begins with zeros loses them to the flags, and may be gone altogether
    obtain ⟨zeros, width, rfl, hzeros, hcanon⟩ := Flags.exists_flags_append width
    obtain ⟨d, hd⟩ := hwidth.of_append
    refine ⟨⟨.ofChars (flags ++ zeros), d, p, m, k⟩, flags ++ zeros, width, precision, ?_,
      List.forall_mem_append.2 ⟨hflags, hzeros⟩, rfl, hd, hcanon, hprecision⟩
    simp only [List.append_assoc]
  · rintro ⟨s, flags, width, precision, rfl, hflags, -, hwidth, -, hprecision⟩
    exact ⟨flags, width, precision, s.length, s.kind, rfl, hflags, ⟨_, hwidth⟩, ⟨_, hprecision⟩⟩

end UnitText
