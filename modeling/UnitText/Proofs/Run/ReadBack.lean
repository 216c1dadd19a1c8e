import UnitText.Proofs.Encoding.RoundTrip
import UnitText.Proofs.Format.Shape
import UnitText.Proofs.Value.Machine
import UnitText.Proofs.Run.Simulation

/-!
# Integers that are read back

A template that is a single integer conversion writes the integer that is stored in as many bits as
its length modifier says. What is written in decimal, or with the mark of its base, is read as that
integer; and so are octal digits, once the blanks around them are gone.

## Main statements

- `Field.integer_shows` — an integer conversion writes what is stored
- `Formatter.integer_reads_back` — what is written is read again
-/

namespace UnitText

theorem Length.bits_bounds (m : Length) : 0 < m.bits ∧ m.bits ≤ 64 := by
  cases m <;> decide

namespace Field

variable {f : Field} {form : IntegerForm} {a : Argument} {v : Int}

/-- Widths of 32 bits, and precisions of 32 bits other than zero, can be met. -/
theorem isModerate_create {s : Specifier} {width precision : Option Int} (w : Width) (written : Nat)
    (hwidth : ∀ n ∈ width, n.natAbs ≤ 2 ^ 31)
    (hprecision : ∀ p ∈ precision, p < 0 ∨ 0 < p ∧ p < 2 ^ 31) :
    (create s width precision w written).IsModerate where
  width := by
    cases width with
    | none => exact Nat.zero_le _
    | some n =>
      have hn := hwidth n rfl
      show n.natAbs ≤ 2 ^ 62
      omega
  precision := by
    intro p hp
    obtain ⟨n, hn, hp⟩ := Option.bind_eq_some_iff.1 hp
    have hn := hprecision n hn
    split at hp
    · cases hp
    · obtain rfl := Option.some.inj hp
      omega

theorem alternate_create (s : Specifier) (width precision : Option Int) (w : Width)
    (written : Nat) : (create s width precision w written).flags.alternate = s.flags.alternate := by
  simp only [create]
  split
  · split <;> rfl
  · rfl

/-- An integer conversion writes what is stored of an integer. -/
theorem integer_shows (hkind : f.spec.kind = .integer form) (hf : f.IsModerate)
    (hfamily : a.family = .integer) (hv : a.value.toInteger = .ok v) :
    ∃ cs, f.integer form a = .ok cs ∧ f.Shows (stored f.spec v) cs := by
  obtain ⟨cs, hcs, hshows⟩ := storedInteger_shows hf (stored f.spec v)
  have hcheck : a.check f.spec = .ok () := by
    rw [Argument.check_eq_ok, hkind]
    simp only [Argument.suits, hfamily]
  have hboolean : a.family ≠ .boolean := by simp [hfamily]
  refine ⟨cs, bind_eq_ok.2 ⟨(), hcheck, ?_⟩, hshows⟩
  rw [if_neg hboolean]
  exact bind_eq_ok.2 ⟨v, hv, hcs⟩

/-- So does a specifier for one. -/
theorem exists_outputs_integer {s : Specifier} {slots : Slots} {vs us : List Value} {x : Value}
    {width precision : Option Int} (w : Width) (hkind : s.kind = .integer form)
    (hwidth : Count.Reads s .width slots s.width vs width)
    (hprecision : Count.Reads s .precision slots s.precision us precision)
    (hwidthBound : ∀ n ∈ width, n.natAbs ≤ 2 ^ 31)
    (hprecisionBound : ∀ p ∈ precision, p < 0 ∨ 0 < p ∧ p < 2 ^ 31)
    (ha : (x.refresh slots).adapt = .ok a) (hfamily : a.family = .integer)
    (hv : a.value.toInteger = .ok v) :
    ∃ cs, (create s width precision w 0).Shows (stored s v) cs ∧
      s.Outputs w slots 0 (vs ++ (us ++ [x])) (.chars cs) (s.kind.stores 0 a.value) := by
  obtain ⟨cs, hcs, hshows⟩ := integer_shows (f := create s width precision w 0) hkind
    (isModerate_create w 0 hwidthBound hprecisionBound) hfamily hv
  have hpercent : s.kind ≠ .percent := by simp [hkind]
  have hlength : s.kind.takes s.length := by
    rw [hkind]
    rfl
  have hrender : (create s width precision w 0).render a = .ok (.chars cs) := by
    have hspec : (create s width precision w 0).spec.kind = .integer form := hkind
    rw [render, hspec]
    exact bind_eq_ok.2 ⟨cs, hcs, rfl⟩
  exact ⟨cs, hshows, .value hpercent hlength hwidth hprecision ha hrender⟩

end Field

namespace Formatter

/-- A template that is a single specifier has its output, whatever values follow. -/
theorem exists_format_specifier {f : Formatter} {s : Specifier} {slots stores : Slots}
    {vs : List Value} {p : Piece} {cs : Chars} {R : Text}
    (hscan : Scan.ofChars f.template = { tokens := [.specifier s], failure := none })
    (hout : s.Outputs f.width slots 0 vs p stores) (hadds : p.Adds cs)
    (hR : Text.encodeLike cs f.container = .ok R) (rest : List Value) :
    ∃ r, f.format slots (vs ++ rest) = (.ok R, r) := by
  have hsteps : Progress.Steps f.width (Scan.ofChars f.template).tokens
      ⟨vs ++ rest, slots, [], []⟩ ⟨rest, stores ++ slots, cs, s.kind.counts 0⟩ := by
    rw [hscan]
    exact .cons (.specifier rfl hout hadds) (.nil _)
  obtain ⟨r, hformat, -, -⟩ := exists_format hsteps (by rw [hscan]) hR
  exact ⟨r, hformat⟩

/-- An integer that was formatted by itself is read as what is stored of it: the only integer that
fits in the bits of the length modifier and agrees with it there. -/
theorem integer_reads_back {f : Formatter} {s : Specifier} {form : IntegerForm} {slots : Slots}
    {vs us rest : List Value} {x : Value} {width precision : Option Int} {a : Argument} {v : Int}
    (hscan : Scan.ofChars f.template = { tokens := [.specifier s], failure := none })
    (hkind : s.kind = .integer form)
    (hwidth : Count.Reads s .width slots s.width vs width)
    (hprecision : Count.Reads s .precision slots s.precision us precision)
    (hwidthBound : ∀ n ∈ width, n.natAbs ≤ 2 ^ 31)
    (hprecisionBound : ∀ p ∈ precision, p < 0 ∨ 0 < p ∧ p < 2 ^ 31)
    (ha : (x.refresh slots).adapt = .ok a) (hfamily : a.family = .integer)
    (hv : a.value.toInteger = .ok v) :
    ∃ w, Integer.IsStored s.length.bits s.kind.isSigned v w ∧
      (∀ w', Integer.IsStored s.length.bits s.kind.isSigned v w' → w' = w) ∧
      ∃ R r, f.format slots (vs ++ (us ++ x :: rest)) = (.ok R, r) ∧
        (s.kind.radix = 10 ∨ s.flags.alternate ∧ (s.kind.radix = 16 ∨ s.kind.radix = 2) →
          parse .integer (some .any) (.text R) = .ok (.integer w)) ∧
        (s.kind.radix = 8 → ∃ cs n, R.decode = .ok cs ∧
          radixValue? 8 (cs.filter (· ≠ CodePoint.ofChar ' ')) = some n ∧ (n : Int) = w) := by
  obtain ⟨hbits, hbits'⟩ := s.length.bits_bounds
  have hstored : Integer.IsStored s.length.bits s.kind.isSigned v (Field.stored s v) :=
    Integer.isStored_wrap hbits
  have hbound := Nat.lt_of_le_of_lt (hstored.natAbs_le hbits') (by decide : 2 ^ 64 < 10 ^ 20)
  have hnonneg : s.kind.radix ≠ 10 → 0 ≤ Field.stored s v := by
    intro hradix
    rw [Field.isSigned_eq_false hradix] at hstored
    exact hstored.nonneg
  obtain ⟨cs, hshows, hout⟩ := Field.exists_outputs_integer f.width hkind hwidth hprecision
    hwidthBound hprecisionBound ha hfamily hv
  obtain ⟨R, hR, hdecode⟩ := Text.decode_encodeLike f.container hshows.not_isSurrogate
  obtain ⟨r, hformat⟩ := exists_format_specifier hscan hout (.chars cs) hR rest
  have hvalues : vs ++ (us ++ x :: rest) = vs ++ (us ++ [x]) ++ rest := by simp
  rw [hvalues]
  refine ⟨Field.stored s v, hstored, fun w' hw' => hstored.unique hbits hw', R, r, hformat, ?_, ?_⟩
  · intro hbase
    have hparse : parseInteger .any R = .ok (Field.stored s v) := by
      rcases hbase with hten | ⟨halternate, hradix⟩
      · exact hshows.parse_decimal hdecode hten hbound
      · refine hshows.parse_marked hdecode ?_ hradix.symm (hnonneg (by omega))
        rwa [Field.alternate_create]
    exact bind_eq_ok.2 ⟨_, rfl, bind_eq_ok.2 ⟨_, hparse, rfl⟩⟩
  · intro hoctal
    have hle := hnonneg (by omega)
    exact ⟨cs, _, hdecode, hshows.octal_eq hoctal hle, Int.natAbs_of_nonneg hle⟩

/-- Eight bits of a negative integer, in hexadecimal. -/
theorem integer_reads_back_negative :
    ∃ R r, ({ container := .chars, template := Chars.ofString "%#hhx" } : Formatter).format []
        [.integer (-2)] = (.ok R, r) ∧
      parse .integer (some .any) (.text R) = .ok (.integer 254) := by
  let s : Specifier := {
    kind := .integer (.hex false)
    flags := { alternate := true }
    length := .hh
    offset := some 0 }
  have hscan : Scan.ofChars (Chars.ofString "%#hhx") =
      { tokens := [.specifier s], failure := none } := by decide +kernel
  obtain ⟨w, -, hunique, R, r, hformat, hparse, -⟩ :=
    integer_reads_back (f := { container := .chars, template := _ }) (x := .integer (-2))
      hscan rfl .none .none nofun nofun rfl rfl rfl
  have hstored : Integer.IsStored 8 false (-2) 254 := ⟨by decide, by decide⟩
  obtain rfl := hunique 254 hstored
  exact ⟨R, r, hformat, hparse (.inr ⟨rfl, .inl rfl⟩)⟩

end Formatter

end UnitText
