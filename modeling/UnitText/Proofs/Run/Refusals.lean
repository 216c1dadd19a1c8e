import UnitText.Proofs.Format.Refusals
import UnitText.Proofs.Value.Machine
import UnitText.Proofs.Run.Concatenation
import UnitText.Proofs.Run.Encoding
import UnitText.Proofs.Run.Joining
import UnitText.Proofs.Template.Specifiers

/-!
# How formatting of basic values fails

Formatting of basic values gives a result, or it reports a problem and tells the place of it: a
template that is malformed, a value that is not there, or one that a conversion refuses. There are
four ways to fail otherwise: a refused integer has too many digits for the report, the digits of a
width or a precision are too many to be read, the number that they write is too large, and a text
has a unit that is no character.

## Main definitions

- `Specifier.HasSmallCounts`, `Specifier.Exceeds` — counts that can be met, and those that cannot
- `Formatter.BasicFailure` — how formatting of basic values fails
- `Formatter.ComesToStar` — the argument that a star is given
- `Formatter.ReportsFailures` — failures that are problems with a place

## Main statements

- `Run.failure_of_apply`, `Formatter.failure_of_format` — how specifiers and templates fail
- `Formatter.failures_reported` — how formatting fails
-/

namespace UnitText

/-- The width and the precision that are written in a specifier can be met. -/
def Specifier.HasSmallCounts (s : Specifier) : Prop :=
  ∀ n, s.width = some (.number n) ∨ s.precision = some (.number n) → n < 2 ^ 31 - 1

/-- The number that is written for a width or a precision. -/
def Count.number? : Count → Option Nat
  | .number n => some n
  | .star => none

/-- The width or the precision that is written in a specifier is too large. -/
def Specifier.Exceeds (s : Specifier) : Failure → Prop :=
  s.kind.Exceeds ((s.width.bind Count.number?).getD 0) (s.precision.bind Count.number?)

theorem Specifier.HasSmallCounts.not_exceeds {s : Specifier} (hs : s.HasSmallCounts) (e : Failure) :
    ¬s.Exceeds e := by
  have hnumber : ∀ {c : Option Count} {n : Nat}, c.bind Count.number? = some n →
      c = some (.number n) := by
    rintro (_ | _ | n) m ⟨⟩
    rfl
  have hprecision : ∀ p, s.precision.bind Count.number? = some p → p < 2 ^ 31 :=
    fun p hp => (hs p (.inr (hnumber hp))).trans (by decide)
  intro h
  cases h with
  | width h =>
    cases hc : s.width.bind Count.number? with
    | none =>
      rw [hc] at h
      exact absurd h (by decide)
    | some n =>
      have hn := hs n (.inl (hnumber hc))
      rw [hc] at h
      have hle : 2 ^ 63 ≤ n := h
      omega
  | digits _ hp h =>
    have hlt := hprecision _ hp
    have hle : 2 ^ 63 ≤ _ := h
    omega
  | places _ _ hp h _ | format _ _ hp h =>
    have hlt := hprecision _ hp
    omega

/-- How formatting of basic values with a template fails. -/
inductive Formatter.BasicFailure (T : Chars) (A : List Value) : Failure → Prop where
  /-- A problem is reported, with its place. -/
  | problem {p : Problem} (hcategory : p.category = .malformedTemplate ∨
      p.category = .missingArgument ∨ p.category = .kindMismatch) (hoffset : p.offset.isSome) :
    BasicFailure T A (.problem p)
  /-- An integer or an address is refused, but has too many digits to be shown. -/
  | oversized {v : Value} {a : Argument} {n : Int} (hv : v ∈ A) (ha : v.adapt = .ok a)
    (hvalue : a.value = .integer n) (hn : Integer.IsTooLong n) :
    BasicFailure T A (.value .tooLongToWrite)
  /-- A text has a unit that is no character. -/
  | undecodable {v : Value} {e : Failure} (hv : v ∈ A) (h : v.adapt = .error e) :
    BasicFailure T A e
  /-- A width or a precision is written with too many digits to be read. -/
  | unreadable {n : Nat} (hn : Integer.digitLimit < n)
    (hscan : (Scan.ofChars T).failure = some (.value (.tooLongToRead n))) :
    BasicFailure T A (.value (.tooLongToRead n))

/-! ## Templates that cannot be scanned -/

theorem SpecifierSource.failsOnly_toCount? (c : Option CountSource) :
    FailsOnly (fun e => ∃ n, Integer.digitLimit < n ∧ e = .value (.tooLongToRead n))
      (toCount? c) := by
  cases c with
  | none => exact failsOnly_ok
  | some c =>
    refine FailsOnly.bind ?_ fun _ _ => failsOnly_pure
    cases c with
    | star => exact failsOnly_ok
    | digits ds =>
      rw [CountSource.toCount]
      split
      · next hlong => exact failsOnly_error ⟨_, hlong, rfl⟩
      · exact failsOnly_ok

theorem SpecifierSource.failsOnly_toSpecifier (s : SpecifierSource) (offset : Nat) :
    FailsOnly (fun e => ∃ n, Integer.digitLimit < n ∧ e = .value (.tooLongToRead n))
      (s.toSpecifier offset) :=
  (failsOnly_toCount? s.width).bind fun _ _ =>
    (failsOnly_toCount? s.precision).bind fun _ _ => failsOnly_pure

/-- A scan ends early at a percent sign that begins nothing, or at digits that are not read. -/
theorem ScansTo.failure_eq {offset : Nat} {cs : Chars} {scan : Scan} (h : ScansTo offset cs scan)
    {e : Failure} (he : scan.failure = some e) :
    (∃ n rest, e = .problem (Scan.malformed n rest)) ∨
      ∃ n, Integer.digitLimit < n ∧ e = .value (.tooLongToRead n) := by
  induction h with
  | nil => cases he
  | char _ _ ih | escape _ ih =>
    rw [Scan.failure_cons] at he
    exact ih he
  | specifier _ _ _ _ ih => exact ih he
  | unreadable _ _ hspec =>
    cases he
    exact .inr (SpecifierSource.failsOnly_toSpecifier _ _ _ hspec)
  | malformed =>
    cases he
    exact .inl ⟨_, _, rfl⟩

theorem Scan.category_malformed (n : Nat) (rest : Chars) :
    (malformed n rest).category = .malformedTemplate ∧ (malformed n rest).offset.isSome := by
  unfold malformed
  split <;> exact ⟨rfl, rfl⟩

/-! ## Widths and precisions -/

/-- A number that is not written comes from a star, and fits 32 bits. -/
theorem Count.Reads.written_or_fits {s : Specifier} {role : StarRole} {slots : Slots}
    {c : Option Count} {vs : List Value} {n : Option Int} (h : Count.Reads s role slots c vs n) :
    ∀ k ∈ n, (∃ m : Nat, k = m ∧ c = some (.number m)) ∨ -2 ^ 31 ≤ k ∧ k < 2 ^ 31 := by
  cases h with
  | none => exact nofun
  | number m =>
    rintro _ ⟨⟩
    exact .inl ⟨m, rfl, rfl⟩
  | star ha hn =>
    rintro _ ⟨⟩
    obtain ⟨-, m, -, rfl⟩ := Argument.starValue_eq_ok.1 hn
    have hstored : Integer.IsStored 32 true m (Integer.wrap 32 true m) :=
      Integer.isStored_wrap (by decide)
    exact .inr hstored.fits

/-- A field whose width or precision is too large was written so. -/
theorem Specifier.exceeds_of_create {s : Specifier} {width precision : Option Int} {w : Width}
    {written : Nat} {e : Failure}
    (hwidth : ∀ k ∈ width,
      (∃ m : Nat, k = m ∧ s.width = some (.number m)) ∨ -2 ^ 31 ≤ k ∧ k < 2 ^ 31)
    (hprecision : ∀ k ∈ precision,
      (∃ m : Nat, k = m ∧ s.precision = some (.number m)) ∨ -2 ^ 31 ≤ k ∧ k < 2 ^ 31)
    (h : (Field.create s width precision w written).Exceeds e) : s.Exceeds e := by
  have hlarge : ∀ {p}, (Field.create s width precision w written).precision = some p →
      2 ^ 31 ≤ p → s.precision.bind Count.number? = some p := by
    intro p hp hle
    obtain ⟨n, hn, hp⟩ := Option.bind_eq_some_iff.1 hp
    split at hp
    · cases hp
    obtain rfl := Option.some.inj hp
    rcases hprecision n hn with ⟨m, rfl, hwritten⟩ | ⟨-, hlt⟩
    · rw [hwritten]
      rfl
    · omega
  cases h with
  | width h =>
    have hle : 2 ^ 63 ≤ (width.map Int.natAbs).getD 0 := h
    cases width with
    | none => cases hle
    | some n =>
      simp only [Option.map_some, Option.getD_some] at hle
      refine .width ?_
      rcases hwidth n rfl with ⟨m, rfl, hwritten⟩ | ⟨hlow, hlt⟩
      · rw [hwritten]
        exact hle
      · omega
  | digits hkind hp h => exact .digits hkind (hlarge hp (Nat.le_trans (by decide) h)) h
  | places hkind hform hp h hlt => exact .places hkind hform (hlarge hp h) h hlt
  | format hkind hform hp h =>
    exact .format hkind hform (hlarge hp (Nat.le_trans (by decide) h)) h

/-! ## Specifiers -/

namespace Run

open Formatter (BasicFailure)

variable {s : Specifier} {T : Chars} {A : List Value} {r r' : Run} {e : Failure}

theorem exists_mem_of_nextArgument {a : Argument} (h : nextArgument s r = .ok a r') :
    ∃ v ∈ r.pending, (v.refresh r.slots).adapt = .ok a := by
  obtain ⟨v, rest, hpending, ha, -⟩ := nextArgument_eq_ok.1 h
  exact ⟨v, by simp [hpending], ha⟩

section

variable (hA : ∀ v ∈ A, v.isBasic) (hoffset : s.offset.isSome)
include hA hoffset

theorem basicFailure_of_refuses {v : Value} {a : Argument} {slots : Slots} (hv : v ∈ A)
    (ha : (v.refresh slots).adapt = .ok a) (h : s.Refuses a e) : BasicFailure T A e := by
  cases h with
  | mismatch hcategory hplace => exact .problem (.inr (.inr hcategory)) (by rwa [hplace])
  | oversized hvalue hn =>
    exact .oversized hv (Value.adapt_of_isTooLong (hA v hv) ha hvalue hn) hvalue hn

omit hA in
theorem basicFailure_of_nextArgument (hr : ∀ v ∈ r.pending, v ∈ A)
    (h : nextArgument s r = .error e r') : BasicFailure T A e := by
  rcases nextArgument_eq_error.1 h with ⟨-, rfl, -⟩ | ⟨v, rest, hpending, ha, -⟩
  · exact .problem (.inr (.inl rfl)) hoffset
  · have hv := hr v (by simp [hpending])
    exact .undecodable hv ((Value.adapt_refresh_eq_error r.slots).1 ha)

theorem basicFailure_of_resolve {role : StarRole} {c : Option Count} (hr : ∀ v ∈ r.pending, v ∈ A)
    (h : resolve s role c r = .error e r') : BasicFailure T A e := by
  obtain ⟨-, hnext | ⟨a, hnext, hstar⟩⟩ := resolve_eq_error.1 h
  · exact basicFailure_of_nextArgument hoffset hr hnext
  · obtain ⟨v, hv, ha⟩ := exists_mem_of_nextArgument hnext
    have hbasic := Value.isBasic_of_adapt (hA v (hr v hv)) ha
    exact basicFailure_of_refuses hA hoffset (hr v hv) ha (hbasic.failsOnly_starValue role e hstar)

theorem failure_of_apply (hphase : r.phase = .scanning) (hr : ∀ v ∈ r.pending, v ∈ A)
    (h : apply .wide32 s r = .error e r') : BasicFailure T A e ∨ s.Exceeds e := by
  by_cases htakes : s.kind.takes s.length
  case neg =>
    cases (apply_of_length hphase htakes).symm.trans h
    exact .inl (.problem (.inl rfl) hoffset)
  rcases (apply_eq_error hphase htakes).1 h with
    hfails | ⟨width, r₁, hwidth, hfails | ⟨precision, r₂, hprecision, hfails⟩⟩
  · exact .inl (basicFailure_of_resolve hA hoffset hr hfails)
  · have hr₁ := fun v hv => hr v ((advances_of_resolve hwidth).pending_suffix.subset hv)
    exact .inl (basicFailure_of_resolve hA hoffset hr₁ hfails)
  have hadvances := (advances_of_resolve hwidth).trans (advances_of_resolve hprecision)
  have hr₂ := fun v hv => hr v (hadvances.pending_suffix.subset hv)
  obtain ⟨_, _, hreads, -, -⟩ := resolve_eq_ok.1 hwidth
  obtain ⟨_, _, hreads', -, -⟩ := resolve_eq_ok.1 hprecision
  have hexceeds : ∀ written, (Field.create s width precision .wide32 written).Exceeds e →
      s.Exceeds e :=
    fun _ => Specifier.exceeds_of_create hreads.written_or_fits hreads'.written_or_fits
  split at hfails
  · exact .inr (hexceeds _ (Field.failsOnly_padText _ _ e hfails.1))
  · next hkind =>
    rcases hfails with hfails | ⟨a, r₃, hnext, hconvert⟩
    · exact .inl (basicFailure_of_nextArgument hoffset hr₂ hfails)
    · obtain ⟨v, hv, ha⟩ := exists_mem_of_nextArgument hnext
      have hbasic := Value.isBasic_of_adapt (hA v (hr₂ v hv)) ha
      obtain ⟨-, hrender | ⟨u, hrender⟩⟩ := of_convert_eq_error hconvert
      · exact (Field.failsOnly_render hbasic rfl hkind e hrender).imp
          (basicFailure_of_refuses hA hoffset (hr₂ v hv) ha) (hexceeds _)
      · -- the text of a basic value is a string
        obtain ⟨hfamily, hvalue⟩ := Field.of_render_eq_value hrender
        cases hbasic with
        | text | character => simp at hvalue
        | _ => rcases hfamily with h | h <;> cases h

end

end Run

/-! ## Runs -/

namespace Formatter

variable {T : Chars} {S : Slots} {A : List Value} {e : Failure}

theorem failure_of_format (hA : ∀ v ∈ A, v.isBasic)
    (h : ((ofChars T).format S A).1 = .error e) :
    BasicFailure T A e ∨ ∃ s, .specifier s ∈ (Scan.ofChars T).tokens ∧ s.Exceeds e := by
  rcases execute_eq_error.1 (format_ofChars_eq_error.1 (Prod.ext h rfl)) with
    ⟨r, hrun, -⟩ | ⟨r, hrun, hjoin, -⟩
  · rcases run_eq_error.1 hrun with hfails | ⟨-, hscan⟩
    · obtain ⟨front, t, rest, r₁, htokens, hfront, hstep⟩ := Run.forM_eq_error.1 hfails
      cases t with
      | literal cs offset =>
        obtain ⟨-, v, hv⟩ := Run.emit_eq_error hstep
        cases hv
      | specifier s =>
        have hs : .specifier s ∈ (Scan.ofChars (ofChars T).template).tokens := by simp [htokens]
        have hadvances := Run.advances_of_forM hfront
        exact (Run.failure_of_apply hA (Scan.isSome_offset hs) hadvances.phase
          (fun v hv => hadvances.pending_suffix.subset hv) hstep).imp_right fun h => ⟨s, hs, h⟩
    · rcases (ScansTo.fromOffset 0 T).failure_eq hscan with ⟨n, rest, rfl⟩ | ⟨n, hn, rfl⟩
      · obtain ⟨hcategory, hoffset⟩ := Scan.category_malformed n rest
        exact .inl (.problem (.inl hcategory) hoffset)
      · exact .inl (.unreadable hn hscan)
  · obtain ⟨v, hv, hfalse⟩ := isFalseText_of_run hrun hjoin
    have hbasic := hA v hv
    cases v with
    | argument => cases hbasic
    | _ => cases hfalse

theorem basicFailure_of_format
    (hcounts : ∀ s, .specifier s ∈ (Scan.ofChars T).tokens → s.HasSmallCounts)
    (hA : ∀ v ∈ A, v.isBasic) (h : ((ofChars T).format S A).1 = .error e) :
    BasicFailure T A e :=
  (failure_of_format hA h).resolve_right fun ⟨s, hs, hexceeds⟩ =>
    (hcounts s hs).not_exceeds e hexceeds

/-- A star of a specifier is given an argument in the run of a formatter. -/
inductive ComesToStar (f : Formatter) (slots : Slots) (values : List Value) (s : Specifier) :
    StarRole → Argument → Prop where
  | width {front rest : List Token} {r r₁ : Run} {a : Argument} (htakes : s.kind.takes s.length)
    (htokens : (Scan.ofChars f.template).tokens = front ++ .specifier s :: rest)
    (hfront : front.forM (Run.step f.width) { pending := values, slots } = .ok () r)
    (hstar : s.width = some .star) (hnext : Run.nextArgument s r = .ok a r₁) :
    ComesToStar f slots values s .width a
  | precision {front rest : List Token} {r r₁ r₂ : Run} {width : Option Int} {a : Argument}
    (htakes : s.kind.takes s.length)
    (htokens : (Scan.ofChars f.template).tokens = front ++ .specifier s :: rest)
    (hfront : front.forM (Run.step f.width) { pending := values, slots } = .ok () r)
    (hwidth : Run.resolve s .width s.width r = .ok width r₁)
    (hstar : s.precision = some .star) (hnext : Run.nextArgument s r₁ = .ok a r₂) :
    ComesToStar f slots values s .precision a

theorem ComesToStar.format_eq_error {f : Formatter} {s : Specifier} {role : StarRole} {a : Argument}
    (h : f.ComesToStar S A s role a) (hfails : a.starValue s role = .error e) :
    (f.format S A).1 = .error e := by
  cases h with
  | width htakes htokens hfront hstar hnext =>
    have hphase := (Run.advances_of_forM hfront).phase
    have hresolve := Run.resolve_eq_error.2 ⟨hstar, .inr ⟨a, hnext, hfails⟩⟩
    have hstep := (Run.apply_eq_error hphase htakes (w := f.width)).2 (.inl hresolve)
    exact format_eq_error_of_step htokens hfront hstep
  | precision htakes htokens hfront hwidth hstar hnext =>
    have hphase := (Run.advances_of_forM hfront).phase
    have hresolve := Run.resolve_eq_error.2 ⟨hstar, .inr ⟨a, hnext, hfails⟩⟩
    have hstep := (Run.apply_eq_error hphase htakes (w := f.width)).2
      (.inr ⟨_, _, hwidth, .inl hresolve⟩)
    exact format_eq_error_of_step htokens hfront hstep

/-- Where formatting of basic values has come to a specifier, the next argument is that of a basic
value, and the specifier stands in the template. -/
theorem isBasic_of_nextArgument {f : Formatter} {front rest : List Token} {s : Specifier}
    {new : Slots} {r r' : Run} {a : Argument} (hA : ∀ v ∈ A, v.isBasic)
    (htokens : (Scan.ofChars f.template).tokens = front ++ .specifier s :: rest)
    (hadvances : Run.Advances { pending := A, slots := S } new r)
    (hnext : Run.nextArgument s r = .ok a r') : a.IsBasic ∧ s.offset.isSome := by
  obtain ⟨v, hv, ha⟩ := Run.exists_mem_of_nextArgument hnext
  have hbasic := hA v (hadvances.pending_suffix.subset hv)
  have hs : .specifier s ∈ (Scan.ofChars f.template).tokens := by simp [htokens]
  exact ⟨Value.isBasic_of_adapt hbasic ha, Scan.isSome_offset hs⟩

theorem ComesToStar.isBasic {f : Formatter} {s : Specifier} {role : StarRole} {a : Argument}
    (hA : ∀ v ∈ A, v.isBasic) (h : f.ComesToStar S A s role a) :
    a.IsBasic ∧ s.offset.isSome := by
  cases h with
  | width _ htokens hfront _ hnext =>
    exact isBasic_of_nextArgument hA htokens (Run.advances_of_forM hfront) hnext
  | precision _ htokens hfront hwidth _ hnext =>
    have hadvances := (Run.advances_of_forM hfront).trans (Run.advances_of_resolve hwidth)
    exact isBasic_of_nextArgument hA htokens hadvances hnext

theorem ComesTo.isBasic {f : Formatter} {s : Specifier} {a : Argument} (hA : ∀ v ∈ A, v.isBasic)
    (h : f.ComesTo S A s a) : a.IsBasic ∧ s.offset.isSome := by
  obtain ⟨-, front, rest, r, r₁, r₂, r₃, width, precision, htokens, hfront, hwidth, hprecision,
    hnext⟩ := h
  have hadvances := ((Run.advances_of_forM hfront).trans (Run.advances_of_resolve hwidth)).trans
    (Run.advances_of_resolve hprecision)
  exact isBasic_of_nextArgument hA htokens hadvances hnext

/-- **Failures are reported.** Formatting of basic values, with a template whose widths and
precisions can be met, gives a result, or it reports a problem with its place; otherwise a value
that was refused is an integer of too many digits to be shown, a text has a unit that is no
character, or digits in the template are too many to be read. Where a conversion comes to an
argument that does not suit it, or to an integer beyond the floating-point numbers, it refuses it,
and so does a star that is given anything but an integer: that is a mismatch with the place of the
specifier, unless the integer or the address is too long to be shown. -/
theorem failures_reported
    (hcounts : ∀ s, .specifier s ∈ (Scan.ofChars T).tokens → s.HasSmallCounts)
    (hA : ∀ v ∈ A, v.isBasic) (S : Slots) :
    (∀ e, ((ofChars T).format S A).1 = .error e → BasicFailure T A e) ∧
    (∀ s a, (ofChars T).ComesTo S A s a → s.kind ≠ .percent →
      a.suits s.kind = .ok false ∨ a.IsTooLargeFor s.kind →
      s.offset.isSome ∧ ∃ e, s.Refuses a e ∧ ((ofChars T).format S A).1 = .error e) ∧
    ∀ s role a, (ofChars T).ComesToStar S A s role a → a.family ≠ .integer →
      s.offset.isSome ∧ ∃ e, s.Refuses a e ∧ ((ofChars T).format S A).1 = .error e := by
  refine ⟨fun e h => basicFailure_of_format hcounts hA h, fun s a hcomes hkind h => ?_,
    fun s role a hcomes hfamily => ?_⟩
  · obtain ⟨hbasic, hoffset⟩ := hcomes.isBasic hA
    refine ⟨hoffset, format_eq_error hcomes hkind ?_⟩
    rintro g rfl -
    exact Field.exists_render_eq_error hbasic hkind h
  · obtain ⟨hbasic, hoffset⟩ := hcomes.isBasic hA
    obtain ⟨e, hrefuses, hstar⟩ := hbasic.exists_starValue_eq_error role hfamily
    exact ⟨hoffset, e, hrefuses, hcomes.format_eq_error hstar⟩

/-- A text is no number, and is shown. -/
theorem failures_reported_text :
    ∃ p : Problem, ((ofChars (Chars.ofString "ab%5d")).format []
        [.ofChars (Chars.ofString "x")]).1 = .error (.problem p) ∧
      p.category = .kindMismatch ∧ p.offset = some 2 := by
  let s : Specifier := { kind := .integer .signedD, width := some (.number 5), offset := some 2 }
  have htokens : (Scan.ofChars (Chars.ofString "ab%5d")).tokens =
      [.literal (Chars.ofString "ab") 0] ++ .specifier s :: [] := by decide +kernel
  have hcounts : ∀ s, .specifier s ∈ (Scan.ofChars (Chars.ofString "ab%5d")).tokens →
      s.HasSmallCounts := by
    intro t ht n hn
    rw [htokens] at ht
    obtain rfl : t = s := by simpa using ht
    obtain rfl : 5 = n := by simpa [s] using hn
    decide
  obtain ⟨-, hrefused, -⟩ := failures_reported hcounts (A := [.ofChars (Chars.ofString "x")])
    (by decide) []
  obtain ⟨-, _, hrefuses, hformat⟩ := hrefused s
    { family := .text, value := .ofChars (Chars.ofString "x") }
    ⟨rfl, _, _, _, _, _, _, _, _, htokens, rfl, rfl, rfl, rfl⟩ nofun (.inl rfl)
  cases hrefuses with
  | mismatch hcategory hoffset => exact ⟨_, hformat, hcategory, hoffset⟩
  | oversized hvalue => cases hvalue

/-- Every failure of formatting is a problem with a place. -/
def ReportsFailures (T : Chars) (A : List Value) : Prop :=
  ∀ e, ((ofChars T).format [] A).1 = .error e → ∃ p : Problem, e = .problem p ∧
    (p.category = .malformedTemplate ∨ p.category = .missingArgument ∨
      p.category = .kindMismatch) ∧ p.offset.isSome

/-- An integer is no text, but the failure is that it has too many digits to be shown. -/
theorem not_reportsFailures :
    ¬ReportsFailures (Chars.ofString "%s") [.integer (10 ^ Integer.digitLimit)] := by
  intro h
  have hformat : ((ofChars (Chars.ofString "%s")).format []
      [.integer (10 ^ Integer.digitLimit)]).1 = .error (.value .tooLongToWrite) := by
    decide +kernel
  obtain ⟨p, hp, -⟩ := h _ hformat
  cases hp

end Formatter

end UnitText
