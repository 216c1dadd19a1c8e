import UnitText.Proofs.Numeral.Digits
import UnitText.Proofs.Numeral.Grammar

/-!
# Numerals are scanned by their grammar

The scanner takes each part of a numeral as long as it can, and gives nothing of it back. It finds
the numeral that the grammar describes all the same, because no part begins with a character that
continues the part before it, and white space continues none of them.

## Main statements

- `Literal.scan?_sound`, `Literal.scan?_complete` — literals before white space
- `Numeral.read_eq_ok_iff` — the numeral that a text is
-/

namespace UnitText

variable {s : Styles} {cs rest : Chars} {ds es : List Nat}

/-! ## White space -/

namespace CodePoint

variable {c : CodePoint}

/-- White space is no digit of any script. -/
theorem digit?_of_isWhiteSpace (h : c.isWhiteSpace) : c.digit? = none := by
  have hapart : ∀ start ∈ Unicode.digitZeros, ∀ d < 10,
      Unicode.inRanges (start + d) Unicode.whiteSpaceRanges = false := by decide +kernel
  rw [Option.eq_none_iff_forall_ne_some]
  intro d hd
  obtain ⟨hlt, start, hstart, hval⟩ := exists_start_of_digitIn? hd
  rw [isWhiteSpace, hval, hapart start hstart d hlt] at h
  cases h

theorem radixDigit?_of_isWhiteSpace (base : Nat) (h : c.isWhiteSpace) :
    radixDigit? base c = none := by
  rw [Option.eq_none_iff_forall_ne_some]
  intro d hd
  have hrange := bounds_of_radixDigit? hd
  simp only [isWhiteSpace, Unicode.whiteSpaceRanges, Unicode.inRanges] at h
  rw [if_neg (by omega), if_neg (by omega), if_neg (by omega), if_neg (by omega),
    if_pos (by omega)] at h
  cases h

theorem ne_of_isWhiteSpace (h : c.isWhiteSpace) {x : Char}
    (hx : (ofChar x).isWhiteSpace = false) : c ≠ ofChar x := by
  rintro rfl
  rw [hx] at h
  cases h

end CodePoint

/-! ## Digits before the point -/

theorem groupRun_stop (h : ∀ c ∈ rest.head?, c ≠ CodePoint.ofChar ',') :
    groupRun rest = ([], rest) := by
  unfold groupRun
  split
  · split
    · rw [if_neg (h _ rfl)]
    · rfl
  · rfl

theorem groupRun_complete (h : WritesGroups ds cs)
    (hrest : ∀ c ∈ rest.head?, c ≠ CodePoint.ofChar ',') : groupRun (cs ++ rest) = (ds, rest) := by
  induction h with
  | nil => exact groupRun_stop hrest
  | cons ha hb hc _ ih => simp only [List.cons_append, groupRun, ha, hb, hc, ih, ↓reduceIte]

theorem groupRun_sound (cs : Chars) :
    ∃ front, cs = front ++ (groupRun cs).2 ∧ WritesGroups (groupRun cs).1 front := by
  induction cs using groupRun.induct with
  | case1 a b c rest x y z hc hb ha ih =>
    obtain ⟨front, hrest, hds⟩ := ih
    refine ⟨CodePoint.ofChar ',' :: a :: b :: c :: front, ?_, ?_⟩
    · simp only [groupRun, ha, hb, hc, ↓reduceIte, List.cons_append]
      rw [← hrest]
    · simp only [groupRun, ha, hb, hc, ↓reduceIte]
      exact .cons ha hb hc hds
  | case2 comma a b c rest x y z hc hb ha hcomma =>
    simp only [groupRun, ha, hb, hc, if_neg hcomma]
    exact ⟨[], rfl, .nil⟩
  | case3 comma a b c rest hdigits =>
    have hrun : groupRun (comma :: a :: b :: c :: rest) = ([], comma :: a :: b :: c :: rest) := by
      unfold groupRun
      split
      · next ha hb hc => exact absurd trivial fun _ => hdigits _ _ _ ha hb hc
      · rfl
    rw [hrun]
    exact ⟨[], rfl, .nil⟩
  | case4 cs hshort =>
    have hrun : groupRun cs = ([], cs) := by
      unfold groupRun
      split
      · exact absurd rfl (hshort _ _ _ _ _)
      · rfl
    rw [hrun]
    exact ⟨[], rfl, .nil⟩

/-- Digits that were written begin with a digit. -/
theorem exists_cons_of_map_digit? (h : cs.map CodePoint.digit? = ds.map some) (hne : ds ≠ []) :
    ∃ c tail d, cs = c :: tail ∧ c.digit? = some d := by
  cases cs with
  | nil => exact absurd (List.map_eq_nil_iff.1 h.symm) hne
  | cons c tail =>
    obtain ⟨d, es, rfl⟩ := List.exists_cons_of_ne_nil hne
    exact ⟨c, tail, d, rfl, (List.cons.inj h).1⟩

namespace DecimalLiteral

theorem WritesWhole.ne_nil (h : WritesWhole s ds cs) : ds ≠ [] := by
  cases h with
  | digits hne => exact hne
  | groups _ hne => exact List.append_ne_nil_of_left_ne_nil hne _

theorem scanWhole_complete (h : WritesWhole s ds cs)
    (hdigit : ∀ c ∈ rest.head?, c.digit? = none)
    (hcomma : ∀ c ∈ rest.head?, c ≠ CodePoint.ofChar ',') :
    scanWhole s (cs ++ rest) = (ds, rest) := by
  cases h with
  | digits hne hds =>
    simp only [scanWhole, digitRun_append hds hdigit, groupRun_stop hcomma]
    split <;> simp
  | @groups ds es cs gs hs hne hlength hds hgroups =>
    have hhead : ∀ c ∈ (gs ++ rest).head?, c.digit? = none := by
      intro c hc
      cases hgroups with
      | nil => exact hdigit c hc
      | cons =>
        obtain rfl : CodePoint.ofChar ',' = c := Option.some.inj hc
        decide
    rw [List.append_assoc]
    simp only [scanWhole, digitRun_append hds hhead, groupRun_complete hgroups hcomma]
    rw [if_pos ⟨hs, hne, hlength⟩]

theorem scanWhole_sound (s : Styles) (cs : Chars) : ∃ front, cs = front ++ (scanWhole s cs).2 ∧
    ((scanWhole s cs).1 = [] ∨ WritesWhole s (scanWhole s cs).1 front) := by
  obtain ⟨front, hcs, hds, -⟩ := digitRun_spec cs
  by_cases hgrouped : s.thousands ∧ (digitRun cs).1 ≠ [] ∧ (digitRun cs).1.length ≤ 3
  · obtain ⟨groups, hrest, hgroups⟩ := groupRun_sound (digitRun cs).2
    obtain ⟨hs, hne, hlength⟩ := hgrouped
    simp only [scanWhole, if_pos (And.intro hs (And.intro hne hlength))]
    refine ⟨front ++ groups, ?_, .inr (.groups hs hne hlength hds hgroups)⟩
    rw [List.append_assoc, ← hrest, ← hcs]
  · simp only [scanWhole, if_neg hgrouped]
    refine ⟨front, hcs, ?_⟩
    by_cases hne : (digitRun cs).1 = []
    · exact .inl hne
    · exact .inr (.digits hne hds)

/-! ## Digits before and after the point -/

theorem WritesMantissa.exists_cons (h : WritesMantissa s ds es cs) :
    ∃ c tail, cs = c :: tail ∧ ((∃ d, c.digit? = some d) ∨ c = CodePoint.ofChar '.') := by
  have hwhole : ∀ {ds cs}, WritesWhole s ds cs → ∃ c tail, cs = c :: tail ∧
      ∃ d, c.digit? = some d := by
    intro ds cs h
    cases h with
    | digits hne hds =>
      obtain ⟨c, tail, d, rfl, hd⟩ := exists_cons_of_map_digit? hds hne
      exact ⟨c, tail, rfl, d, hd⟩
    | groups _ hne _ hds _ =>
      obtain ⟨c, tail, d, rfl, hd⟩ := exists_cons_of_map_digit? hds hne
      exact ⟨c, _, rfl, d, hd⟩
  cases h with
  | whole h =>
    obtain ⟨c, tail, rfl, hd⟩ := hwhole h
    exact ⟨c, tail, rfl, .inl hd⟩
  | point _ h _ =>
    obtain ⟨c, tail, rfl, hd⟩ := hwhole h
    exact ⟨c, _, rfl, .inl hd⟩
  | fraction => exact ⟨_, _, rfl, .inr rfl⟩

theorem scanMantissa?_complete (h : WritesMantissa s ds es cs)
    (hdigit : ∀ c ∈ rest.head?, c.digit? = none)
    (hcomma : ∀ c ∈ rest.head?, c ≠ CodePoint.ofChar ',')
    (hpoint : ∀ c ∈ rest.head?, c ≠ CodePoint.ofChar '.') :
    scanMantissa? s (cs ++ rest) = some (ds, es, rest) := by
  cases h with
  | whole h =>
    obtain ⟨d, ds, rfl⟩ := List.exists_cons_of_ne_nil h.ne_nil
    unfold scanMantissa?
    rw [scanWhole_complete h hdigit hcomma]
    cases rest with
    | nil => rfl
    | cons c rest => exact if_neg fun hc => hpoint c rfl hc.2
  | @point ds es cs ps hs h hes =>
    have hwhole : scanWhole s (cs ++ CodePoint.ofChar '.' :: (ps ++ rest)) =
        (ds, CodePoint.ofChar '.' :: (ps ++ rest)) :=
      scanWhole_complete h (by rintro c ⟨⟩; decide) (by rintro c ⟨⟩; decide)
    obtain ⟨d, ds, rfl⟩ := List.exists_cons_of_ne_nil h.ne_nil
    rw [List.append_assoc, List.cons_append]
    unfold scanMantissa?
    rw [hwhole]
    simp only [hs, true_and, ↓reduceIte, digitRun_append hes hdigit]
  | @fraction es ps hs hne hes =>
    have hwhole : scanWhole s (CodePoint.ofChar '.' :: (ps ++ rest)) =
        ([], CodePoint.ofChar '.' :: (ps ++ rest)) := by
      have hstop : digitRun (CodePoint.ofChar '.' :: (ps ++ rest)) =
          ([], CodePoint.ofChar '.' :: (ps ++ rest)) :=
        digitRun_stop (by rintro c ⟨⟩; decide)
      simp [scanWhole, hstop]
    rw [List.cons_append]
    unfold scanMantissa?
    rw [hwhole]
    simp only [hs, true_and, digitRun_append hes hdigit]
    exact if_pos hne

theorem scanMantissa?_sound (h : scanMantissa? s cs = some (ds, es, rest)) :
    ∃ front, cs = front ++ rest ∧ WritesMantissa s ds es front := by
  obtain ⟨front, hcs, hor⟩ := scanWhole_sound s cs
  unfold scanMantissa? at h
  split at h
  · next behind hscan =>
    split at h
    · next point rest' =>
      split at h
      · next hcond =>
        obtain ⟨hs, rfl, hne⟩ := hcond
        obtain ⟨rfl, hrun⟩ := Prod.mk.inj (Option.some.inj h)
        obtain ⟨ps, hps, hes, -⟩ := digitRun_spec rest'
        rw [hrun] at hps hes hne
        exact ⟨CodePoint.ofChar '.' :: ps, congrArg _ hps, .fraction hs hne hes⟩
      · cases h
    · cases h
  · next whole point rest' hne hscan =>
    rw [hscan] at hcs hor
    have hwhole : WritesWhole s whole front := hor.resolve_left hne
    split at h
    · next hcond =>
      obtain ⟨hs, rfl⟩ := hcond
      obtain ⟨rfl, hrun⟩ := Prod.mk.inj (Option.some.inj h)
      obtain ⟨ps, hps, hes, -⟩ := digitRun_spec rest'
      rw [hrun] at hps hes
      refine ⟨front ++ CodePoint.ofChar '.' :: ps, ?_, .point hs hwhole hes⟩
      rw [hcs, hps, List.append_assoc, List.cons_append]
    · cases h
      exact ⟨front, hcs, .whole hwhole⟩
  · next whole hne hscan =>
    rw [hscan] at hcs hor
    cases h
    exact ⟨front, hcs, .whole (hor.resolve_left hne)⟩

/-! ## Exponents -/

theorem scanSign_complete {negative : Bool} {sign : Chars} (h : WritesSign negative sign)
    (hplus : ∀ c ∈ rest.head?, c ≠ CodePoint.ofChar '+')
    (hminus : ∀ c ∈ rest.head?, c ≠ CodePoint.ofChar '-') :
    scanSign (sign ++ rest) = (negative, rest) := by
  cases h with
  | none =>
    cases rest with
    | nil => rfl
    | cons c rest => rw [List.nil_append, scanSign, if_neg (hminus c rfl), if_neg (hplus c rfl)]
  | plus => rfl
  | minus => rfl

theorem scanSign_sound (cs : Chars) :
    ∃ sign, cs = sign ++ (scanSign cs).2 ∧ WritesSign (scanSign cs).1 sign := by
  cases cs with
  | nil => exact ⟨[], rfl, .none⟩
  | cons c cs =>
    rw [scanSign]
    split
    · next hc => exact ⟨[c], rfl, hc ▸ .minus⟩
    split
    · next hc => exact ⟨[c], rfl, hc ▸ .plus⟩
    · exact ⟨[], rfl, .none⟩

/-- Digits do not begin with a sign. -/
theorem ne_of_mem_head?_of_map_digit? (h : cs.map CodePoint.digit? = ds.map some) (hne : ds ≠ [])
    {x : Char} (hx : (CodePoint.ofChar x).digit? = none) (rest : Chars) :
    ∀ c ∈ (cs ++ rest).head?, c ≠ CodePoint.ofChar x := by
  obtain ⟨c, tail, d, rfl, hd⟩ := exists_cons_of_map_digit? h hne
  rintro _ ⟨⟩ rfl
  rw [hx] at hd
  cases hd

theorem WritesExponent.head?_eq {n : Int} (h : WritesExponent s n cs) :
    ∀ c ∈ cs.head?, c = CodePoint.ofChar 'e' ∨ c = CodePoint.ofChar 'E' := by
  cases h with
  | none => nofun
  | some _ hmark =>
    rintro _ ⟨⟩
    exact hmark

theorem scanExponent_complete {n : Int} (h : WritesExponent s n cs)
    (hdigit : ∀ c ∈ rest.head?, c.digit? = none)
    (hmark : ∀ c ∈ rest.head?, c ≠ CodePoint.ofChar 'e' ∧ c ≠ CodePoint.ofChar 'E') :
    scanExponent s (cs ++ rest) = (n, rest) := by
  cases h with
  | none =>
    cases rest with
    | nil => rfl
    | cons c rest =>
      obtain ⟨he, hE⟩ := hmark c rfl
      rw [List.nil_append, scanExponent]
      exact if_neg fun h => h.2.1.elim he hE
  | @some mark negative ds sign cs hs hmark' hsign hne hds =>
    have hscan : scanSign (sign ++ (cs ++ rest)) = (negative, cs ++ rest) :=
      scanSign_complete hsign (ne_of_mem_head?_of_map_digit? hds hne (by decide) rest)
        (ne_of_mem_head?_of_map_digit? hds hne (by decide) rest)
    rw [List.cons_append, List.append_assoc, scanExponent]
    simp only [hscan, digitRun_append hds hdigit]
    rw [if_pos ⟨hs, hmark', hne⟩]

theorem scanExponent_sound (s : Styles) (cs : Chars) :
    ∃ front, cs = front ++ (scanExponent s cs).2 ∧
      WritesExponent s (scanExponent s cs).1 front := by
  cases cs with
  | nil => exact ⟨[], rfl, .none⟩
  | cons mark cs =>
    obtain ⟨sign, hsign, hwrites⟩ := scanSign_sound cs
    obtain ⟨digits, hdigits, hds, -⟩ := digitRun_spec (scanSign cs).2
    have hscan : scanExponent s (mark :: cs) =
        if s.exponent ∧ (mark = CodePoint.ofChar 'e' ∨ mark = CodePoint.ofChar 'E') ∧
          (digitRun (scanSign cs).2).1 ≠ [] then
          (if (scanSign cs).1 then -(digitsValue 10 (digitRun (scanSign cs).2).1 : Int)
            else digitsValue 10 (digitRun (scanSign cs).2).1, (digitRun (scanSign cs).2).2)
        else (0, mark :: cs) := rfl
    rw [hscan]
    split
    · next hcond =>
      obtain ⟨hs, hmark, hne⟩ := hcond
      refine ⟨mark :: (sign ++ digits), ?_, .some hs hmark hwrites hne hds⟩
      rw [List.cons_append, List.append_assoc, ← hdigits, ← hsign]
    · exact ⟨[], rfl, .none⟩

/-! ## Decimal literals -/

/-- A decimal literal is scanned up to white space. -/
theorem scan?_complete {l : DecimalLiteral} (h : l.IsWritten s cs)
    (hrest : ∀ c ∈ rest, c.isWhiteSpace) : scan? s (cs ++ rest) = some (l, rest) := by
  obtain ⟨front, back, rfl, hmantissa, hexponent⟩ := h
  have hwhite : ∀ c ∈ rest.head?, c.isWhiteSpace := fun c hc => hrest c (List.mem_of_mem_head? hc)
  -- behind the mantissa stands a mark or white space
  have hbehind : ∀ c ∈ (back ++ rest).head?,
      (c = CodePoint.ofChar 'e' ∨ c = CodePoint.ofChar 'E') ∨ c.isWhiteSpace := by
    cases back with
    | nil => exact fun c hc => .inr (hwhite c hc)
    | cons d back => exact fun c hc => .inl (hexponent.head?_eq c hc)
  have hdigit : ∀ c ∈ (back ++ rest).head?, c.digit? = none := by
    intro c hc
    rcases hbehind c hc with (rfl | rfl) | hspace
    · decide
    · decide
    · exact CodePoint.digit?_of_isWhiteSpace hspace
  have hne : ∀ x : Char, CodePoint.ofChar 'e' ≠ CodePoint.ofChar x →
      CodePoint.ofChar 'E' ≠ CodePoint.ofChar x → (CodePoint.ofChar x).isWhiteSpace = false →
      ∀ c ∈ (back ++ rest).head?, c ≠ CodePoint.ofChar x := by
    intro x he hE hx c hc
    rcases hbehind c hc with (rfl | rfl) | hspace
    · exact he
    · exact hE
    · exact CodePoint.ne_of_isWhiteSpace hspace hx
  have hfront : scanMantissa? s (front ++ (back ++ rest)) =
      some (l.whole, l.fraction, back ++ rest) :=
    scanMantissa?_complete hmantissa hdigit (hne ',' (by decide) (by decide) (by decide))
      (hne '.' (by decide) (by decide) (by decide))
  have hback : scanExponent s (back ++ rest) = (l.exponent, rest) :=
    scanExponent_complete hexponent
      (fun c hc => CodePoint.digit?_of_isWhiteSpace (hwhite c hc)) fun c hc =>
        ⟨CodePoint.ne_of_isWhiteSpace (hwhite c hc) (by decide),
          CodePoint.ne_of_isWhiteSpace (hwhite c hc) (by decide)⟩
  rw [scan?, List.append_assoc, hfront]
  simp only [Option.map_some, hback]

theorem scan?_sound {l : DecimalLiteral} (h : scan? s cs = some (l, rest)) :
    ∃ front, cs = front ++ rest ∧ l.IsWritten s front := by
  obtain ⟨⟨whole, fraction, behind⟩, hmantissa, hmap⟩ := Option.map_eq_some_iff.1 h
  have hresult : ({ whole, fraction, exponent := (scanExponent s behind).1 },
      (scanExponent s behind).2) = (l, rest) := hmap
  obtain ⟨rfl, rfl⟩ := Prod.mk.inj hresult
  obtain ⟨front, rfl, hfront⟩ := scanMantissa?_sound hmantissa
  obtain ⟨back, hback, hexponent⟩ := scanExponent_sound s behind
  exact ⟨front ++ back, by rw [List.append_assoc, ← hback], front, back, rfl, hfront, hexponent⟩

/-! ### Characters of decimal literals -/

/-- A character of a decimal literal: a digit, or one of the signs around digits. -/
def IsPart (c : CodePoint) : Prop :=
  (∃ d, c.digit? = some d) ∨ c ∈ [',', '.', 'e', 'E', '+', '-'].map CodePoint.ofChar

theorem isPart_of_map_digit? (h : cs.map CodePoint.digit? = ds.map some) : ∀ c ∈ cs, IsPart c := by
  intro c hc
  obtain ⟨d, -, hd⟩ := List.mem_map.1 (h ▸ List.mem_map_of_mem hc)
  exact .inl ⟨d, hd.symm⟩

theorem isPart_of_writesGroups (h : WritesGroups ds cs) : ∀ c ∈ cs, IsPart c := by
  induction h with
  | nil => nofun
  | cons ha hb hc _ ih =>
    simp only [List.forall_mem_cons]
    exact ⟨.inr (by decide), .inl ⟨_, ha⟩, .inl ⟨_, hb⟩, .inl ⟨_, hc⟩, ih⟩

theorem WritesWhole.isPart (h : WritesWhole s ds cs) : ∀ c ∈ cs, IsPart c := by
  cases h with
  | digits _ hds => exact isPart_of_map_digit? hds
  | groups _ _ _ hds hgroups =>
    exact List.forall_mem_append.2 ⟨isPart_of_map_digit? hds, isPart_of_writesGroups hgroups⟩

theorem WritesMantissa.isPart (h : WritesMantissa s ds es cs) : ∀ c ∈ cs, IsPart c := by
  cases h with
  | whole h => exact h.isPart
  | point _ h hes =>
    refine List.forall_mem_append.2 ⟨h.isPart, ?_⟩
    exact List.forall_mem_cons.2 ⟨.inr (by decide), isPart_of_map_digit? hes⟩
  | fraction _ _ hes =>
    exact List.forall_mem_cons.2 ⟨.inr (by decide), isPart_of_map_digit? hes⟩

theorem WritesExponent.isPart {n : Int} (h : WritesExponent s n cs) : ∀ c ∈ cs, IsPart c := by
  cases h with
  | none => nofun
  | some _ hmark hsign _ hds =>
    refine List.forall_mem_cons.2 ⟨.inr ?_, List.forall_mem_append.2 ⟨?_, isPart_of_map_digit? hds⟩⟩
    · rcases hmark with rfl | rfl <;> decide
    · cases hsign with
      | none => nofun
      | plus => exact List.forall_mem_singleton.2 (.inr (by decide))
      | minus => exact List.forall_mem_singleton.2 (.inr (by decide))

theorem IsWritten.isPart {l : DecimalLiteral} (h : l.IsWritten s cs) : ∀ c ∈ cs, IsPart c := by
  obtain ⟨front, back, rfl, hmantissa, hexponent⟩ := h
  exact List.forall_mem_append.2 ⟨hmantissa.isPart, hexponent.isPart⟩

end DecimalLiteral

/-! ## Literals -/

namespace Literal

theorem radixOf?_eq_some_iff {mark : CodePoint} {base : Nat} :
    radixOf? s mark = some base ↔ IsMark s mark base := by
  constructor
  · intro h
    rw [radixOf?] at h
    split at h
    · next hmark => exact Option.some.inj h ▸ .hex hmark.2 hmark.1
    split at h
    · next hmark => exact Option.some.inj h ▸ .binary hmark.2 hmark.1
    split at h
    · next hmark => exact Option.some.inj h ▸ .octal hmark.2 hmark.1
    · cases h
  · rintro (⟨hs, rfl | rfl⟩ | ⟨hs, rfl | rfl⟩ | ⟨hs, rfl | rfl⟩)
    all_goals simp [radixOf?, hs, CodePoint.ext_iff]

/-- Marks are neither characters of decimal literals nor white space. -/
theorem radixOf?_of_isPart {c : CodePoint} (h : DecimalLiteral.IsPart c ∨ c.isWhiteSpace) :
    radixOf? s c = none := by
  have hmarks : ∀ c ∈ ['x', 'X', 'b', 'B', 'o', 'O'].map CodePoint.ofChar, c.digit? = none ∧
      c ∉ [',', '.', 'e', 'E', '+', '-'].map CodePoint.ofChar ∧ c.isWhiteSpace = false := by decide
  rw [Option.eq_none_iff_forall_ne_some]
  intro base hbase
  have hmem : c ∈ ['x', 'X', 'b', 'B', 'o', 'O'].map CodePoint.ofChar := by
    obtain ⟨_, rfl | rfl⟩ | ⟨_, rfl | rfl⟩ | ⟨_, rfl | rfl⟩ := radixOf?_eq_some_iff.1 hbase
    all_goals decide
  obtain ⟨hdigit, hpart, hspace⟩ := hmarks c hmem
  rcases h with (⟨d, hd⟩ | h) | h
  · rw [hdigit] at hd
    cases hd
  · exact hpart h
  · rw [hspace] at h
    cases h

theorem scanRadix?_eq_none {cs : Chars} (h : ∀ c ∈ cs, radixOf? s c = none) :
    scanRadix? s cs = none := by
  unfold scanRadix?
  split
  · rw [h _ (List.mem_cons_of_mem _ List.mem_cons_self)]
  · rfl

/-- A literal is scanned up to white space. -/
theorem scan?_complete {l : Literal} (h : l.IsWritten s cs) (hrest : ∀ c ∈ rest, c.isWhiteSpace) :
    scan? s (cs ++ rest) = some (l, rest) := by
  cases h with
  | @radix mark base ds cs hmark hne hds =>
    have hstop : ∀ c ∈ rest.head?, radixDigit? base c = none := fun c hc =>
      CodePoint.radixDigit?_of_isWhiteSpace base (hrest c (List.mem_of_mem_head? hc))
    have hscan : scanRadix? s (CodePoint.ofChar '0' :: mark :: (cs ++ rest)) =
        some (digitsValue base ds, rest) := by
      rw [scanRadix?]
      simp only [radixOf?_eq_some_iff.2 hmark, radixRun_append hds hstop]
      exact if_pos ⟨trivial, hne⟩
    rw [List.cons_append, List.cons_append, scan?, hscan]
  | @decimal l _ h =>
    have hnone : scanRadix? s (cs ++ rest) = none := scanRadix?_eq_none <|
      List.forall_mem_append.2 ⟨fun c hc => radixOf?_of_isPart (.inl (h.isPart c hc)),
        fun c hc => radixOf?_of_isPart (.inr (hrest c hc))⟩
    rw [scan?, hnone, DecimalLiteral.scan?_complete h hrest]
    rfl

theorem scan?_sound {l : Literal} (h : scan? s cs = some (l, rest)) :
    ∃ front, cs = front ++ rest ∧ l.IsWritten s front := by
  rw [scan?] at h
  split at h
  · next n behind hscan =>
    obtain ⟨rfl, rfl⟩ := Prod.mk.inj (Option.some.inj h)
    unfold scanRadix? at hscan
    split at hscan
    · next zero mark cs =>
      split at hscan
      · next base hbase =>
        have hdigits : (if zero = CodePoint.ofChar '0' ∧ (radixRun base cs).1 ≠ [] then
            some (digitsValue base (radixRun base cs).1, (radixRun base cs).2) else none) =
            some (n, behind) := hscan
        split at hdigits
        · next hcond =>
          obtain ⟨rfl, hne⟩ := hcond
          obtain ⟨rfl, rfl⟩ := Prod.mk.inj (Option.some.inj hdigits)
          obtain ⟨front, hcs, hds⟩ := radixRun_spec base cs
          exact ⟨CodePoint.ofChar '0' :: mark :: front,
            congrArg (CodePoint.ofChar '0' :: mark :: ·) hcs,
            .radix (radixOf?_eq_some_iff.1 hbase) hne hds⟩
        · cases hdigits
      · cases hscan
    · cases hscan
  · obtain ⟨⟨l, behind⟩, hscan, hmap⟩ := Option.map_eq_some_iff.1 h
    obtain ⟨rfl, rfl⟩ := Prod.mk.inj hmap
    obtain ⟨front, hcs, hl⟩ := DecimalLiteral.scan?_sound hscan
    exact ⟨front, hcs, .decimal hl⟩

/-- A literal begins neither with white space nor with a sign. -/
theorem IsWritten.exists_cons {l : Literal} (h : l.IsWritten s cs) :
    ∃ c tail, cs = c :: tail ∧ c.isWhiteSpace = false ∧ c ≠ CodePoint.ofChar '+' ∧
      c ≠ CodePoint.ofChar '-' := by
  cases h with
  | radix => exact ⟨_, _, rfl, by decide⟩
  | decimal h =>
    obtain ⟨front, back, rfl, hmantissa, -⟩ := h
    obtain ⟨c, tail, rfl, ⟨d, hd⟩ | rfl⟩ := hmantissa.exists_cons
    · refine ⟨c, tail ++ back, rfl, ?_, ?_, ?_⟩
      · rw [Bool.eq_false_iff]
        intro hspace
        rw [CodePoint.digit?_of_isWhiteSpace hspace] at hd
        cases hd
      · rintro rfl
        cases hd
      · rintro rfl
        cases hd
    · exact ⟨_, _, rfl, by decide⟩

end Literal

/-! ## Numerals -/

namespace Numeral

theorem skipWhite_complete {allowed : Bool} {white : Chars} (h : white.IsWhite allowed)
    (hrest : ∀ c ∈ rest.head?, c.isWhiteSpace = false) :
    skipWhite allowed (white ++ rest) = rest := by
  obtain ⟨hwhite, hallowed⟩ := h
  rw [skipWhite]
  split
  · rw [List.dropWhile_append_of_pos hwhite]
    cases rest with
    | nil => rfl
    | cons c rest => rw [List.dropWhile_cons, hrest c rfl]; rfl
  · next hnot =>
    rw [Decidable.not_not.1 fun hne => hnot (hallowed hne)]
    rfl

theorem skipWhite_sound (allowed : Bool) (cs : Chars) :
    ∃ white : Chars, cs = white ++ skipWhite allowed cs ∧ white.IsWhite allowed := by
  rw [skipWhite]
  split
  · next hallowed =>
    exact ⟨cs.takeWhile CodePoint.isWhiteSpace, List.takeWhile_append_dropWhile.symm,
      fun c hc => List.all_eq_true.1 List.all_takeWhile c hc, fun _ => hallowed⟩
  · exact ⟨[], rfl, nofun, fun h => absurd rfl h⟩

theorem readSign_complete {allowed negative : Bool} {sign : Chars} (h : WritesSign negative sign)
    (hallowed : sign ≠ [] → allowed) (hplus : ∀ c ∈ rest.head?, c ≠ CodePoint.ofChar '+')
    (hminus : ∀ c ∈ rest.head?, c ≠ CodePoint.ofChar '-') :
    readSign allowed (sign ++ rest) = (negative, rest) := by
  rw [readSign]
  split
  · exact DecimalLiteral.scanSign_complete h hplus hminus
  · next hnot =>
    cases h with
    | none => rfl
    | plus => exact absurd (hallowed nofun) hnot
    | minus => exact absurd (hallowed nofun) hnot

theorem readSign_sound (allowed : Bool) (cs : Chars) : ∃ sign : Chars,
    cs = sign ++ (readSign allowed cs).2 ∧ WritesSign (readSign allowed cs).1 sign ∧
      (sign ≠ [] → allowed) := by
  rw [readSign]
  split
  · next hallowed =>
    obtain ⟨sign, hcs, hsign⟩ := DecimalLiteral.scanSign_sound cs
    exact ⟨sign, hcs, hsign, fun _ => hallowed⟩
  · exact ⟨[], rfl, .none, fun h => absurd rfl h⟩

theorem read_complete {n : Numeral} (h : n.IsWritten s cs) : read s cs = .ok n := by
  obtain ⟨negative, literal⟩ := n
  obtain ⟨white, sign, body, trailing, rfl, hwhite, hsign, hallowed, hbody, htrailing⟩ := h
  obtain ⟨c, tail, htail, hspace, hplus, hminus⟩ := hbody.exists_cons
  have hsigned : ∀ c ∈ (sign ++ (body ++ trailing)).head?, c.isWhiteSpace = false := by
    cases hsign with
    | none =>
      rw [htail]
      rintro _ ⟨⟩
      exact hspace
    | plus => rintro _ ⟨⟩; decide
    | minus => rintro _ ⟨⟩; decide
  have hleading : readSign s.leadingSign (skipWhite s.leadingWhite
      (white ++ (sign ++ (body ++ trailing)))) = (negative, body ++ trailing) := by
    rw [skipWhite_complete hwhite hsigned]
    refine readSign_complete hsign hallowed ?_ ?_
    · rw [htail]
      rintro _ ⟨⟩
      exact hplus
    · rw [htail]
      rintro _ ⟨⟩
      exact hminus
  have hbehind : skipWhite s.trailingWhite trailing = [] := by
    have hnil : ∀ c ∈ ([] : Chars).head?, c.isWhiteSpace = false := nofun
    simpa using skipWhite_complete htrailing hnil
  rw [read, hleading]
  simp only [Literal.scan?_complete hbody htrailing.1, hbehind]

theorem read_sound {n : Numeral} (h : read s cs = .ok n) : n.IsWritten s cs := by
  obtain ⟨white, hcs, hwhite⟩ := skipWhite_sound s.leadingWhite cs
  obtain ⟨sign, hsigned, hsign, hallowed⟩ :=
    readSign_sound s.leadingSign (skipWhite s.leadingWhite cs)
  unfold read at h
  split at h
  next negative literalAt hread =>
  rw [hread] at hsigned hsign
  split at h
  · cases h
  · next literal behind hscan =>
    obtain ⟨body, rfl, hbody⟩ := Literal.scan?_sound hscan
    obtain ⟨trailing, hbehind, htrailing⟩ := skipWhite_sound s.trailingWhite behind
    split at h
    · next hend =>
      obtain rfl := Except.ok.inj h
      rw [hend, List.append_nil] at hbehind
      subst hbehind
      exact ⟨white, sign, body, behind, by rw [hcs, hsigned], hwhite, hsign, hallowed, hbody,
        htrailing⟩
    · cases h

/-- A text is read as the numeral that it writes. -/
theorem read_eq_ok_iff {n : Numeral} : read s cs = .ok n ↔ n.IsWritten s cs :=
  ⟨read_sound, read_complete⟩

/-- A text writes one numeral at most. -/
theorem IsWritten.unique {m n : Numeral} (hm : m.IsWritten s cs) (hn : n.IsWritten s cs) :
    m = n :=
  Except.ok.inj ((read_complete hm).symm.trans (read_complete hn))

end Numeral

end UnitText
