import UnitText.Proofs.Format.Restate
import UnitText.Proofs.Value.Machine
import UnitText.Proofs.Run.Concatenation
import UnitText.Proofs.Template.Stars

/-!
# Stars and numbers

A star in a template does what the number would do that its argument gives: with the number written
in the template, and without the argument, there is the same output, and the same counts are stored.

## Main definitions

- `Value.starNumber?` — the number that a value gives for a star
- `Formatter.starNumbers` — the numbers that are read for the stars of a template
- `plainValues` — the values without those for stars

## Main statements

- `Specifier.Outputs.exists_rewrites` — a specifier with numbers has the same output
- `ScansTo.stepsWithNumbers` — so have all tokens of a text
- `Formatter.stars_as_numbers` — formatting with numbers in place of stars
-/

namespace UnitText

/-- The number that a value gives for a star. -/
def Value.starNumber? (v : Value) : Option Int :=
  match v.adapt with
  | .ok a =>
    if a.family = .integer then a.value.toInteger.toOption.map (Integer.wrap 32 true) else .none
  | .error _ => .none

/-- The number of values that the stars of a specifier consume. -/
def Specifier.starCount (s : Specifier) : Nat :=
  (if s.width = some .star then 1 else 0) + (if s.precision = some .star then 1 else 0)

/-- The values without those that the stars of a template consume. -/
def plainValues : List Token → List Value → List Value
  | [], vs => vs
  | .literal _ _ :: ts, vs => plainValues ts vs
  | .specifier s :: ts, vs =>
    (vs.take s.argumentCount).drop s.starCount ++ plainValues ts (vs.drop s.argumentCount)

/-! ## Numbers for stars -/

theorem Flags.union_minus (f : Flags) :
    f.union (.ofChars [CodePoint.ofChar '-']) = { f with left := true } := by
  simp [union, ofChars, CodePoint.ext_iff]

theorem Flags.union_zero (f : Flags) :
    f.union (.ofChars [CodePoint.ofChar '0']) = { f with zero := true } := by
  simp [union, ofChars, CodePoint.ext_iff]

theorem Value.starNumber?_eq {v : Value} {a : Argument} {s : Specifier} {role : StarRole} {n : Int}
    (ha : v.adapt = .ok a) (hn : a.starValue s role = .ok n) : v.starNumber? = some n := by
  obtain ⟨hfamily, m, hm, rfl⟩ := Argument.starValue_eq_ok.1 hn
  simp only [starNumber?, ha, hfamily, ↓reduceIte, hm]
  rfl

/-- The numbers of the values that are read for stars, after counts were stored. -/
def useNumbers (slots : Slots) (us : List (Option StarRole × Value)) : List (Option Int) :=
  (us.filter (·.1.isSome)).map fun u => (u.2.refresh slots).starNumber?

theorem useNumbers_append (slots : Slots) (us us' : List (Option StarRole × Value)) :
    useNumbers slots (us ++ us') = useNumbers slots us ++ useNumbers slots us' := by
  simp only [useNumbers, List.filter_append, List.map_append]

/-- The numbers that readings for stars give, if counts were stored before all of them. -/
def starNumbers (slots : Slots) (xs : List Reading) : List (Option Int) :=
  (xs.filter (·.role.isSome)).map fun x => (x.value.refresh (x.stores ++ slots)).starNumber?

theorem starNumbers_append (slots : Slots) (xs ys : List Reading) :
    starNumbers slots (xs ++ ys) = starNumbers slots xs ++ starNumbers slots ys := by
  simp only [starNumbers, List.filter_append, List.map_append]

theorem starNumbers_map (slots stores : Slots) (s : Specifier) (text : Chars)
    (us : List (Option StarRole × Value)) :
    starNumbers slots (us.map fun (role, v) => { spec := s, role, value := v, text, stores }) =
      useNumbers (stores ++ slots) us := by
  simp only [starNumbers, useNumbers, List.filter_map, List.map_map]
  rfl

open CountSource

namespace Count.Reads

variable {s : Specifier} {role : StarRole} {slots : Slots} {c : Option CountSource}
  {vs : List Value} {m : Option Int}

/-- A star reads the number that its value gives, which fits 32 bits. -/
theorem exists_starNumber (h : Count.Reads s role slots (some .star) vs m) :
    ∃ n, m = some n ∧ useNumbers slots ((Count.roles role (some .star)).zip vs) = [n].map some ∧
      n.natAbs < 10 ^ 20 := by
  cases h with
  | @star v a n ha hn =>
    refine ⟨n, rfl, congrArg (· :: []) (Value.starNumber?_eq ha hn), ?_⟩
    obtain ⟨-, k, -, rfl⟩ := Argument.starValue_eq_ok.1 hn
    have hstored : Integer.IsStored 32 true k (Integer.wrap 32 true k) :=
      Integer.isStored_wrap (by decide)
    exact Nat.lt_of_le_of_lt (hstored.natAbs_le (by decide)) (by decide)

/-- A number that is written reads no values. -/
theorem ofNat (s : Specifier) (role : StarRole) (slots : Slots) (n : Nat) :
    Count.Reads s role slots ((some (CountSource.ofNat n)).map count) [] (some n) := by
  rw [Option.map_some, count_ofNat]
  exact .number n

/-- What is no star reads no values, whatever specifier it stands in. -/
theorem of_ne_star (h : Count.Reads s role slots (c.map count) vs m) (hc : c ≠ some .star) :
    Count.roles role (c.map count) = [] ∧ ∀ t, Count.Reads t role slots (c.map count) [] m := by
  cases c with
  | none =>
    cases h
    exact ⟨rfl, fun _ => .none⟩
  | some c =>
    cases c with
    | digits ds =>
      cases h
      exact ⟨rfl, fun _ => .number _⟩
    | star => exact absurd rfl hc

/-- A width does what it becomes when numbers are put in place of stars. -/
theorem exists_rewritesWidth (h : Count.Reads s .width slots (c.map count) vs m) (flags : Flags) :
    ∃ ns extra c' m', RewritesWidth c ns extra c' ∧
      useNumbers slots ((Count.roles .width (c.map count)).zip vs) = ns.map some ∧
      (∀ t, Count.Reads t .width slots (c'.map count) [] m') ∧
      RestatesWidth flags m (flags.union (.ofChars extra)) m' := by
  have hnone : flags.union (.ofChars []) = flags := by simp
  by_cases hc : c = some .star
  · subst hc
    obtain ⟨n, rfl, hvs, hbound⟩ := exists_starNumber h
    rcases Int.lt_trichotomy n 0 with hneg | rfl | hpos
    · obtain ⟨k, rfl⟩ : ∃ k : Nat, n = -k := ⟨n.natAbs, by omega⟩
      refine ⟨_, _, _, _, .left (n := k) (by omega) (by omega), hvs, fun t => ofNat t _ _ k, ?_⟩
      have hrestates := RestatesWidth.left flags hneg
      rw [Int.neg_neg] at hrestates
      rwa [Flags.union_minus]
    · refine ⟨_, _, _, .none, .zero, hvs, fun t => .none, ?_⟩
      rw [Flags.union_zero]
      exact .zero flags
    · obtain ⟨k, rfl⟩ : ∃ k : Nat, n = k := ⟨n.natAbs, by omega⟩
      refine ⟨_, _, _, _, .number (n := k) (by omega) (by omega), hvs, fun t => ofNat t _ _ k, ?_⟩
      rw [hnone]
      exact .same _ _
  · obtain ⟨hroles, hreads⟩ := of_ne_star h hc
    refine ⟨_, _, _, m, .keep hc, ?_, hreads, by rw [hnone]; exact .same _ _⟩
    rw [hroles]
    rfl

/-- A precision does what it becomes when numbers are put in place of stars. -/
theorem exists_rewritesPrecision (h : Count.Reads s .precision slots (c.map count) vs m) :
    ∃ ns c' m', RewritesPrecision c ns c' ∧
      useNumbers slots ((Count.roles .precision (c.map count)).zip vs) = ns.map some ∧
      (∀ t, Count.Reads t .precision slots (c'.map count) [] m') ∧ RestatesPrecision m m' := by
  by_cases hc : c = some .star
  · subst hc
    obtain ⟨n, rfl, hvs, hbound⟩ := exists_starNumber h
    by_cases hneg : n < 0
    · exact ⟨_, _, .none, .removed hneg, hvs, fun _ => .none, .removed hneg⟩
    · obtain ⟨k, rfl⟩ : ∃ k : Nat, n = k := ⟨n.natAbs, by omega⟩
      exact ⟨_, _, _, .number (n := k) (by omega), hvs, fun t => ofNat t _ _ k, .same _⟩
  · obtain ⟨hroles, hreads⟩ := of_ne_star h hc
    refine ⟨_, _, m, .keep hc, ?_, hreads, .same _⟩
    rw [hroles]
    rfl

end Count.Reads

/-! ## Specifiers -/

/-- The values for the width and the precision of a specifier are those for its stars, and with
their numbers in place of the stars it reads no values, for a width and a precision that say the
same. -/
theorem SpecifierSource.exists_rewrites {s : SpecifierSource} {offset : Nat} {slots : Slots}
    {vs us : List Value} {width precision : Option Int}
    (hwidth : Count.Reads (s.specifier offset) .width slots (s.width.map count) vs width)
    (hprecision :
      Count.Reads (s.specifier offset) .precision slots (s.precision.map count) us precision) :
    (s.specifier offset).starCount = (vs ++ us).length ∧
      ∃ ns t m m', s.Rewrites ns t ∧
        (useNumbers slots ((Count.roles .width (s.width.map count)).zip vs) ++
          useNumbers slots ((Count.roles .precision (s.precision.map count)).zip us)) =
            ns.map some ∧
        (∀ u : Specifier, Count.Reads u .width slots (t.width.map count) [] m ∧
          Count.Reads u .precision slots (t.precision.map count) [] m') ∧
        RestatesWidth s.flags width t.flags m ∧ RestatesPrecision precision m' := by
  obtain ⟨ns, extra, width', m, hrewrite, hns, hreads, hrestates⟩ :=
    hwidth.exists_rewritesWidth s.flags
  obtain ⟨ks, precision', m', hrewrite', hks, hreads', hrestates'⟩ :=
    hprecision.exists_rewritesPrecision
  refine ⟨?_, _, _, m, m', .intro hrewrite hrewrite', ?_, fun u => ⟨hreads u, hreads' u⟩,
    hrestates, hrestates'⟩
  · rw [List.length_append, hwidth.length_eq, hprecision.length_eq]
    rfl
  · rw [List.map_append, hns, hks]

/-- A specifier has the same output, with its numbers and without the values for its stars. -/
theorem Specifier.Outputs.exists_rewrites {w : Width} {s : SpecifierSource} {offset written : Nat}
    {slots stores : Slots} {vs : List Value} {p : Piece}
    (h : (s.specifier offset).Outputs w slots written vs p stores) :
    ∃ ns t, s.Rewrites ns t ∧
      useNumbers slots ((s.specifier offset).roles.zip vs) = ns.map some ∧
      ∀ offset', (t.specifier offset').Outputs w slots written
        (vs.drop (s.specifier offset).starCount) p stores := by
  cases h with
  | percent hkind hlength hwidth hprecision h =>
    obtain ⟨hcount, ns, t, m, m', hrewrites, hns, hreads, hrestates, hrestates'⟩ :=
      SpecifierSource.exists_rewrites hwidth hprecision
    refine ⟨ns, t, hrewrites, ?_, fun offset' => ?_⟩
    · rw [← hns, roles, Kind.roles, if_pos hkind, List.append_nil,
        List.zip_append hwidth.length_roles, useNumbers_append]
      rfl
    · rw [hcount, List.drop_length]
      obtain ⟨hreads, hreads'⟩ := hreads (t.specifier offset')
      cases hrewrites
      refine @percent _ _ _ _ [] [] _ _ _ hkind hlength hreads hreads' ?_
      rw [← h]
      exact Field.percent_create rfl rfl hrestates hrestates'
  | value hkind hlength hwidth hprecision ha h =>
    obtain ⟨hcount, ns, t, m, m', hrewrites, hns, hreads, hrestates, hrestates'⟩ :=
      SpecifierSource.exists_rewrites hwidth hprecision
    refine ⟨ns, t, hrewrites, ?_, fun offset' => ?_⟩
    · rw [← hns, roles, Kind.roles, if_neg hkind, List.zip_append hwidth.length_roles,
        List.zip_append hprecision.length_roles, useNumbers_append, useNumbers_append]
      exact congrArg _ (List.append_nil _)
    · rw [hcount, ← List.append_assoc, List.drop_left]
      obtain ⟨hreads, hreads'⟩ := hreads (t.specifier offset')
      cases hrewrites
      refine @value _ _ _ _ [] [] _ _ _ _ _ hkind hlength hreads hreads' ha ?_
      exact Field.render_create (s := s.specifier offset) rfl rfl hrestates hrestates' h

/-- A percent sign and nothing else behind a percent sign is no conversion of a value. -/
theorem SpecifierSource.eq_of_isWritten_percent {t : SpecifierSource}
    (h : t.IsWritten [CodePoint.ofChar '%']) :
    t = { flags := {}, width := none, precision := none, length := .none, kind := .percent } := by
  have hscan := scan?_append h []
  have hpercent : scan? [CodePoint.ofChar '%'] = some ({
      flags := {}, width := none, precision := none, length := .none, kind := .percent }, []) := by
    decide +kernel
  rw [List.append_nil, hpercent] at hscan
  exact (Prod.mk.inj (Option.some.inj hscan)).1.symm

/-- Such a specifier writes what the escape writes that it looks like. -/
theorem Specifier.Outputs.eq_percent {w : Width} {t : SpecifierSource} {offset written : Nat}
    {slots stores : Slots} {vs : List Value} {p : Piece} (ht : t.IsWritten [CodePoint.ofChar '%'])
    (h : (t.specifier offset).Outputs w slots written vs p stores) :
    vs = [] ∧ p = .chars [CodePoint.ofChar '%'] ∧ stores = [] := by
  obtain rfl := SpecifierSource.eq_of_isWritten_percent ht
  cases h with
  | percent _ _ hwidth hprecision h =>
    cases hwidth
    cases hprecision
    have hpad := fun s => Field.padText_bare (Field.create s none none w written) ['%']
    obtain rfl := Except.ok.inj ((hpad _).symm.trans h)
    exact ⟨rfl, rfl, rfl⟩
  | value hkind => exact absurd rfl hkind

/-! ## Runs -/

open Progress

open Scan (complete)

/-- Literal text reads no values. -/
theorem Run.Shows.exists_readings_literal {w : Width} {r : Run} {P : Progress} (hr : r.Shows w P)
    (cs : Chars) (offset : Nat) : ∃ r', r'.Shows w { P with text := P.text ++ cs } ∧
      ∀ ts stores, Run.readings w (.literal cs offset :: ts) stores r =
        Run.readings w ts stores r' := by
  obtain ⟨r', hrun, hr'⟩ := hr.exists_step (.literal cs offset P)
  exact ⟨r', hr', fun ts stores => readings_cons hrun⟩

/-- Literal text that meets literal text makes no difference to what is read behind it. -/
theorem Run.Shows.exists_readings_joinTokens {w : Width} {r : Run} {P Q : Progress} {cs : Chars}
    {ts : List Token} (hr : r.Shows w P) (h : Steps w ts { P with text := P.text ++ cs } Q)
    (offset : Nat) : ∃ r', r'.Shows w { P with text := P.text ++ cs } ∧ ∀ stores,
      Run.readings w (joinTokens [.literal cs offset] ts) stores r =
        Run.readings w ts stores r' := by
  obtain ⟨r', hr', hreadings⟩ := hr.exists_readings_literal cs offset
  refine ⟨r', hr', fun stores => ?_⟩
  rcases ts with _ | ⟨t, ts⟩
  · exact hreadings [] stores
  cases t with
  | specifier s => exact hreadings _ stores
  | literal text offset' =>
    -- the run of the text in one token has come as far as that of the two tokens
    obtain ⟨r₁, hr₁, hreadings₁⟩ := hr.exists_readings_literal (cs ++ text) offset
    obtain ⟨r₂, hr₂, hreadings₂⟩ := hr'.exists_readings_literal text offset'
    obtain ⟨_, hstep, hsteps⟩ := steps_cons_iff.1 h
    obtain rfl := step_literal_iff.1 hstep
    have hjoin : joinTokens [.literal cs offset] (.literal text offset' :: ts) =
        .literal (cs ++ text) offset :: ts := rfl
    rw [← List.append_assoc] at hr₁
    rw [hjoin, hreadings₁, hreadings₂, hr₁.readings_eq hr₂ hsteps]

theorem plainValues_joinTokens (text : Chars) (offset : Nat) (ts : List Token) (vs : List Value) :
    plainValues (joinTokens [.literal text offset] ts) vs = plainValues ts vs := by
  rcases ts with _ | ⟨_ | _, _⟩ <;> rfl

/-- A specifier that can be read does in a template what it outputs, also if it is written as the
escape. -/
theorem exists_scansTo_specifier {w : Width} {t : SpecifierSource} {body cs : Chars}
    {vs rest : List Value} {p : Piece} {text : Chars} {stores : Slots} {P Q : Progress}
    (ht : t.IsWritten body) (hspec : ∀ offset, t.toSpecifier offset = .ok (t.specifier offset))
    (hout : ∀ offset, (t.specifier offset).Outputs w P.slots (w.length P.text) vs p stores)
    (hadds : p.Adds text)
    (h : ∀ offset, ∃ us, ScansTo offset cs (complete us) ∧ Steps w us {
      pending := rest, slots := stores ++ P.slots, text := P.text ++ text,
      counts := P.counts ++ t.kind.counts (w.length P.text) } Q) (offset : Nat) :
    ∃ us, ScansTo offset (CodePoint.ofChar '%' :: (body ++ cs)) (complete us) ∧
      Steps w us { P with pending := vs ++ rest } Q := by
  by_cases hne : body = [CodePoint.ofChar '%']
  · subst hne
    obtain ⟨rfl, rfl, rfl⟩ := (hout 0).eq_percent ht
    cases hadds
    obtain rfl := SpecifierSource.eq_of_isWritten_percent ht
    obtain ⟨us, hus, hsteps⟩ := h (offset + 2)
    have hcounts : Kind.percent.counts (w.length P.text) = [] := rfl
    rw [hcounts, List.append_nil] at hsteps
    refine ⟨joinTokens [.literal [CodePoint.ofChar '%'] offset] us, ?_, ?_⟩
    · rw [← Scan.cons_complete]
      exact .escape hus
    · exact steps_joinTokens.2 (.cons (.literal _ offset _) hsteps)
  · obtain ⟨us, hus, hsteps⟩ := h (offset + (1 + body.length))
    exact ⟨.specifier (t.specifier offset) :: us, .specifier ht hne (hspec offset) hus,
      .cons (.specifier rfl (hout offset) hadds) hsteps⟩

/-- A text with these tokens, with the numbers in place of its stars that runs read, does without
the values for them what leads from one progress to the other. The counts `base` were stored
before. -/
def StepsWithNumbers (w : Width) (base : Slots) (ts : List Token) (cs : Chars) (P Q : Progress) :
    Prop :=
  ∃ ns, (∀ r stores, r.Shows w P → P.slots = stores ++ base →
      starNumbers base (Run.readings w ts stores r) = ns.map some) ∧
    ∀ offset, ∃ us, ScansTo offset (writeStars .text ns cs) (complete us) ∧
      Steps w us { P with pending := plainValues ts P.pending } Q

namespace StepsWithNumbers

variable {w : Width} {base : Slots} {ts : List Token} {cs : Chars} {P Q : Progress}

theorem char {c : CodePoint}
    (h : StepsWithNumbers w base ts cs { P with text := P.text ++ [c] } Q)
    (hsteps : Steps w ts { P with text := P.text ++ [c] } Q)
    (hc : c ≠ CodePoint.ofChar '%') (offset : Nat) :
    StepsWithNumbers w base (joinTokens [.literal [c] offset] ts) (c :: cs) P Q := by
  obtain ⟨ns, hns, h⟩ := h
  refine ⟨ns, fun r stores hr hstores => ?_, fun offset => ?_⟩
  · obtain ⟨r', hr', hreadings⟩ := hr.exists_readings_joinTokens hsteps offset
    rw [hreadings]
    exact hns r' stores hr' hstores
  obtain ⟨us, hus, hsteps⟩ := h (offset + 1)
  refine ⟨joinTokens [.literal [c] offset] us, ?_, ?_⟩
  · rw [writeStars, if_neg hc, ← Scan.cons_complete]
    exact .char hc hus
  · rw [plainValues_joinTokens]
    exact steps_joinTokens.2 (.cons (.literal [c] offset _) hsteps)

theorem escape (h : StepsWithNumbers w base ts cs
      { P with text := P.text ++ [CodePoint.ofChar '%'] } Q)
    (hsteps : Steps w ts { P with text := P.text ++ [CodePoint.ofChar '%'] } Q) (offset : Nat) :
    StepsWithNumbers w base (joinTokens [.literal [CodePoint.ofChar '%'] offset] ts)
      (CodePoint.ofChar '%' :: CodePoint.ofChar '%' :: cs) P Q := by
  obtain ⟨ns, hns, h⟩ := h
  refine ⟨ns, fun r stores hr hstores => ?_, fun offset => ?_⟩
  · obtain ⟨r', hr', hreadings⟩ := hr.exists_readings_joinTokens hsteps offset
    rw [hreadings]
    exact hns r' stores hr' hstores
  obtain ⟨us, hus, hsteps⟩ := h (offset + 2)
  refine ⟨joinTokens [.literal [CodePoint.ofChar '%'] offset] us, ?_, ?_⟩
  · have hwrite : writeStars .text ns (CodePoint.ofChar '%' :: CodePoint.ofChar '%' :: cs) =
        CodePoint.ofChar '%' :: CodePoint.ofChar '%' :: writeStars .text ns cs := rfl
    rw [hwrite, ← Scan.cons_complete]
    exact .escape hus
  · rw [plainValues_joinTokens]
    exact steps_joinTokens.2 (.cons (.literal _ offset _) hsteps)

theorem specifier {s : SpecifierSource} {offset : Nat} {body : Chars} {M : Progress}
    (h : StepsWithNumbers w base ts cs M Q) (hs : s.IsWritten body)
    (hspec : s.toSpecifier offset = .ok (s.specifier offset))
    (hstep : Step w (.specifier (s.specifier offset)) P M) :
    StepsWithNumbers w base (.specifier (s.specifier offset) :: ts)
      (CodePoint.ofChar '%' :: (body ++ cs)) P Q := by
  obtain ⟨ks, hks, h⟩ := h
  have hrun := fun r (hr : Run.Shows w r P) => hr.exists_step hstep
  have hslots := fun r (hr : Run.Shows w r P) => hr.slots_eq hstep
  cases hstep with
  | @specifier _ _ vs rest p text new hpending hout hadds =>
    obtain ⟨ns, t, hrewrites, hns, hout'⟩ := hout.exists_rewrites
    obtain ⟨body', hbody', hwrite⟩ := hrewrites.exists_isWritten hs
    have hlength := hout.length_eq
    have hplain : plainValues (.specifier (s.specifier offset) :: ts) P.pending =
        vs.drop (s.specifier offset).starCount ++ plainValues ts rest := by
      rw [plainValues, hpending, ← hlength, List.drop_left, List.take_left]
    have htext : writeStars .text (ns ++ ks) (CodePoint.ofChar '%' :: (body ++ cs)) =
        CodePoint.ofChar '%' :: (body' ++ writeStars .text ks cs) := by
      rw [writeStars, if_pos rfl, hwrite]
    refine ⟨ns ++ ks, fun r stores hr hstores => ?_, fun offset' => ?_⟩
    · obtain ⟨r', hstep', hr'⟩ := hrun r hr
      have hnew : new ++ P.slots = Token.stores r (.specifier (s.specifier offset)) ++ P.slots :=
        hslots r hr
      obtain rfl := List.append_cancel_right hnew
      rw [Run.Shows.readings_cons hstep', starNumbers_append, hr.readings_specifier hpending hout,
        starNumbers_map, ← hstores, hns, hks r' _ hr' (by rw [hstores, List.append_assoc]),
        List.map_append]
    rw [htext, hplain]
    have hkind : (s.specifier offset).kind = t.kind := hrewrites.kind_eq.symm
    rw [hkind] at h
    exact exists_scansTo_specifier hbody' (hrewrites.toSpecifier_eq_ok hspec) hout' hadds h offset'

end StepsWithNumbers

/-- All tokens of a text do the same with numbers in place of its stars. -/
theorem ScansTo.stepsWithNumbers {w : Width} {offset : Nat} {cs : Chars} {scan : Scan}
    {P Q : Progress} (h : ScansTo offset cs scan) (hfailure : scan.failure = none)
    (hsteps : Steps w scan.tokens P Q) (base : Slots) :
    StepsWithNumbers w base scan.tokens cs P Q := by
  induction h generalizing P with
  | nil =>
    obtain rfl := steps_nil_iff.1 hsteps
    exact ⟨[], fun _ _ _ _ => rfl, fun offset => ⟨[], .nil, .nil P⟩⟩
  | @char offset c cs scan hc _ ih =>
    rw [Scan.failure_cons] at hfailure
    rw [Scan.tokens_cons hfailure] at hsteps ⊢
    obtain ⟨M, hM, hsteps⟩ := steps_cons_iff.1 (steps_joinTokens.1 hsteps)
    obtain rfl := step_literal_iff.1 hM
    exact (ih hfailure hsteps).char hsteps hc offset
  | @escape offset cs scan _ ih =>
    rw [Scan.failure_cons] at hfailure
    rw [Scan.tokens_cons hfailure] at hsteps ⊢
    obtain ⟨M, hM, hsteps⟩ := steps_cons_iff.1 (steps_joinTokens.1 hsteps)
    obtain rfl := step_literal_iff.1 hM
    exact (ih hfailure hsteps).escape hsteps offset
  | specifier hs _ hspec _ ih =>
    obtain ⟨-, -, rfl⟩ := SpecifierSource.toSpecifier_eq_ok_iff.1 hspec
    obtain ⟨M, hM, hrest⟩ := steps_cons_iff.1 hsteps
    exact (ih hfailure hrest).specifier hs hspec hM
  | unreadable => cases hfailure
  | malformed => cases hfailure

namespace Formatter

/-- The numbers that are read for stars, in order, when values are formatted: each as its value
shows it after what was stored by then. -/
def starNumbers (f : Formatter) (slots : Slots) (values : List Value) : List (Option Int) :=
  UnitText.starNumbers slots (f.readings slots values)

/-- Formatting with stars gives what formatting gives with the numbers in place of the stars that
are read for them, and without the values for them; and the same counts are stored. -/
theorem stars_as_numbers {f : Formatter} {slots : Slots} {values : List Value} {R : Text} {r : Run}
    (h : f.format slots values = (.ok R, r)) :
    ∃ ns, f.starNumbers slots values = ns.map some ∧
      let f' : Formatter := { f with template := writeStars .text ns f.template }
      let values' := plainValues (Scan.ofChars f.template).tokens values
      ∃ r', f'.format slots values' = (.ok R, r') ∧
        f'.counts slots values' = f.counts slots values ∧ r'.slots = r.slots := by
  obtain ⟨P, hP, hfailure, hR, hslots, -, hcounts⟩ := exists_steps_of_format h
  obtain ⟨ns, hns, hrewritten⟩ :=
    (ScansTo.fromOffset 0 f.template).stepsWithNumbers hfailure hP slots
  refine ⟨ns, hns _ [] (Run.shows_initial f.width slots values) rfl, ?_⟩
  intro f' values'
  obtain ⟨us, hus, hsteps⟩ := hrewritten 0
  have hscan : Scan.ofChars f'.template = complete us := hus.unique
  obtain ⟨r', hformat, hslots', hcounts'⟩ := exists_format (f := f') (by rw [hscan]; exact hsteps)
    (by rw [hscan]; rfl) hR
  exact ⟨r', hformat, hcounts'.trans hcounts.symm, hslots'.trans hslots.symm⟩

/-- A precision below zero, which leaves the escape. -/
theorem stars_as_numbers_escape : ∃ r,
    (ofChars (Chars.ofString "%-6.3d%%%n")).format [] [.integer 42, .slot "n" none] =
      (.ok (.ofString "042   %"), r) ∧ r.slots = [("n", 7)] := by
  let f := ofChars (Chars.ofString "%*.*d%.*%%n")
  let values : List Value := [.integer (-6), .integer 3, .integer 42, .integer (-1), .slot "n" none]
  have hR : (f.format [] values).1.toOption = some (.ofString "042   %") := by decide +kernel
  have hslots : (f.format [] values).2.slots = [("n", 7)] := by decide +kernel
  obtain ⟨ns, hns, r, h, -, hr⟩ := stars_as_numbers (format_of_toOption hR)
  have hstars : f.starNumbers [] values = [-6, 3, -1].map some := by decide +kernel
  obtain rfl : ns = [-6, 3, -1] :=
    (List.map_inj_right fun _ _ => Option.some.inj).1 (hns.symm.trans hstars)
  have htemplate : writeStars .text [-6, 3, -1] f.template = Chars.ofString "%-6.3d%%%n" := by
    decide +kernel
  have hvalues : plainValues (Scan.ofChars f.template).tokens values =
      [.integer 42, .slot "n" none] := by decide +kernel
  rw [htemplate, hvalues] at h
  exact ⟨r, h, hr.trans hslots⟩

end Formatter

end UnitText
