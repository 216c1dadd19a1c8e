import UnitText.Proofs.Text.Search

/-!
# Texts in order, and parts of texts

Texts of one width are in a total order. If case is ignored, the order is one of texts up to case: a
text and its small and capital forms have the same place in it. Parts of texts are in the same
order, and searching agrees with it: a text begins with another one, ends with it or contains it if
the part at the right place is equal to the other one.

## Main statements

- `Text.compare_total` — the order of texts of one width
- `Text.compareAt_eq_ok`, `Text.compareAt_eq_error` — where parts of texts can be compared
- `Text.compareAt_eq_eq_iff` — where a whole text is equal to a part of another one
- `Text.search_compareAt` — searching, by comparing parts
-/

namespace UnitText

namespace Text

variable {a b c s t p : Text}

/-! ## Texts in order -/

/-- A map of units that differ in case only is not seen if case is ignored. -/
theorem folded_mapUnits {f : Nat → Nat}
    {hf : ∀ u, u < t.container.unitLimit → f u < t.container.unitLimit}
    (h : ∀ u, lowerUnit (f u) = lowerUnit u) : (t.mapUnits f hf).folded true = t.folded true := by
  refine Text.ext rfl ?_
  show (t.units.map f).map lowerUnit = t.units.map lowerUnit
  rw [List.map_map]
  exact List.map_congr_left fun u _ => h u

/-- The letters of a text can be made small or capital if case is ignored. -/
theorem folded_of_mem (h : s ∈ [t, t.toLower, t.toUpper]) : s.folded true = t.folded true := by
  simp only [List.mem_cons, List.not_mem_nil, or_false] at h
  rcases h with rfl | rfl | rfl
  · rfl
  · exact folded_mapUnits lowerUnit_lowerUnit
  · exact folded_mapUnits lowerUnit_upperUnit

/-- **Texts of one width are in a total order.** Whichever two texts are compared, in whatever
containers, there is a result. The other way round it is the opposite one; what comes before a text
comes before all that the text comes before; and two texts have the same place just if they have the
same units. If case is ignored, these are the units with all letters made small, and it does not
matter whether the letters of the one text or the other were made small or capital before. -/
theorem compare_total (hab : a.width = b.width) (hbc : b.width = c.width)
    (ha : ∀ u ∈ a.units, u < 0x110000) (hb : ∀ u ∈ b.units, u < 0x110000)
    (hc : ∀ u ∈ c.units, u < 0x110000) (ignoreCase : Bool) :
    ∃ ab bc ac, compare ignoreCase a b = .ok ab ∧ compare ignoreCase b c = .ok bc ∧
      compare ignoreCase a c = .ok ac ∧ compare ignoreCase b a = .ok ab.swap ∧
      (ab.isLE → bc.isLE → ac.isLE) ∧
      (ab = .eq ↔ (a.folded ignoreCase).units = (b.folded ignoreCase).units) ∧
      ∀ a' ∈ [a, a.toLower, a.toUpper], ∀ b' ∈ [b, b.toLower, b.toUpper],
        compare true a' b' = compare true a b := by
  refine ⟨_, _, _, compare_eq_ok ignoreCase hab ha hb, compare_eq_ok ignoreCase hbc hb hc,
    compare_eq_ok ignoreCase (hab.trans hbc) ha hc, ?_, ?_, ?_, ?_⟩
  · rw [compare_eq_ok ignoreCase hab.symm hb ha]
    exact congrArg Except.ok Std.OrientedOrd.eq_swap
  · exact Std.TransCmp.isLE_trans
  · exact Std.LawfulEqOrd.compare_eq_iff_eq
  · intro a' ha' b' hb'
    rw [compare, compare, folded_of_mem ha', folded_of_mem hb']

/-- An underscore is between the capital letters and the small ones. -/
theorem compare_total_underscore :
    let underscore := Container.bytes.pack [0x5F]
    let small := Container.byteBuffer.pack [0x61]
    let capital := Container.units8.pack [0x5A]
    compare true underscore small = .ok .lt ∧ compare true small underscore = .ok .gt ∧
      compare true small capital = .ok .lt ∧
      (∃ o, compare true underscore capital = .ok o ∧ o.isLE) ∧
      compare true underscore.toUpper small.toUpper = .ok .lt := by
  intro underscore small capital
  obtain ⟨ab, bc, ac, hab, hbc, hac, hba, htrans, -, hcase⟩ :=
    compare_total (a := underscore) (b := small) (c := capital) rfl rfl (by decide) (by decide)
      (by decide) true
  obtain rfl : .lt = ab := Except.ok.inj hab
  obtain rfl : .lt = bc := Except.ok.inj hbc
  exact ⟨hab, hba, hbc, ⟨ac, hac, htrans rfl rfl⟩,
    (hcase _ (by decide) _ (by decide)).trans hab⟩

/-! ## Parts of texts -/

variable {cs : Chars} {i j l : Int}

theorem slice_eq_ok (hl : 0 ≤ l) (hi : 0 ≤ i ∧ i ≤ cs.length) :
    slice cs i l = .ok ((cs.drop i.toNat).take l.toNat) := by
  rw [slice, if_neg (Int.not_lt.2 hl), if_neg (by omega)]

theorem slice_eq_error (cs : Chars) (h : l < 0 ∨ ¬(0 ≤ i ∧ i ≤ cs.length)) :
    ∃ p : Problem, slice cs i l = .error (.problem p) ∧ p.category = .indexOutOfRange := by
  rw [slice]
  by_cases hl : l < 0
  · exact ⟨_, if_pos hl, rfl⟩
  · refine ⟨_, (if_neg hl).trans (if_pos ?_), rfl⟩
    omega

@[simp] theorem length_folded (ignoreCase : Bool) (t : Text) :
    (t.folded ignoreCase).units.length = t.units.length := by
  cases ignoreCase with
  | false => rfl
  | true => exact List.length_map _

@[simp] theorem length_unitChars (t : Text) : t.unitChars.length = t.units.length :=
  List.length_map _

section

variable (ignoreCase : Bool) (hw : s.width = p.width) (hs : ∀ u ∈ s.units, u < 0x110000)
  (hp : ∀ u ∈ p.units, u < 0x110000)
include hw hs hp

/-- What is compared are parts of the units. -/
theorem compareAt_eq : compareAt ignoreCase s i p j l = (do
    let us ← slice (s.folded ignoreCase).unitChars i l
    let vs ← slice (p.folded ignoreCase).unitChars j l
    return us.order vs) := by
  rw [compareAt, unitStrings_folded_eq_ok ignoreCase hw hs hp]
  rfl

/-- Parts that begin inside their texts, or at the end of them, are compared. -/
theorem compareAt_eq_ok (hl : 0 ≤ l) (hi : 0 ≤ i ∧ i ≤ s.units.length)
    (hj : 0 ≤ j ∧ j ≤ p.units.length) : compareAt ignoreCase s i p j l = .ok (Ord.compare
      (((s.folded ignoreCase).units.drop i.toNat).take l.toNat)
      (((p.folded ignoreCase).units.drop j.toNat).take l.toNat)) := by
  rw [compareAt_eq ignoreCase hw hs hp, slice_eq_ok hl (by simpa using hi),
    slice_eq_ok hl (by simpa using hj)]
  refine congrArg Except.ok ?_
  rw [Chars.order_eq_compare]
  simp only [List.map_take, List.map_drop, map_val_unitChars (folded_lt ignoreCase hs),
    map_val_unitChars (folded_lt ignoreCase hp)]

/-- Other parts, and those of a negative length, are out of range. -/
theorem compareAt_eq_error (h : l < 0 ∨ ¬(0 ≤ i ∧ i ≤ s.units.length) ∨
      ¬(0 ≤ j ∧ j ≤ p.units.length)) :
    ∃ problem : Problem, compareAt ignoreCase s i p j l = .error (.problem problem) ∧
      problem.category = .indexOutOfRange := by
  rw [compareAt_eq ignoreCase hw hs hp]
  by_cases hfirst : l < 0 ∨ ¬(0 ≤ i ∧ i ≤ s.units.length)
  · obtain ⟨problem, hslice, hcategory⟩ :=
      slice_eq_error (s.folded ignoreCase).unitChars (by simpa using hfirst)
    rw [hslice]
    exact ⟨problem, rfl, hcategory⟩
  · obtain ⟨hl, hi⟩ := not_or.1 hfirst
    have hj : l < 0 ∨ ¬(0 ≤ j ∧ j ≤ p.units.length) := by omega
    obtain ⟨problem, hslice, hcategory⟩ :=
      slice_eq_error (p.folded ignoreCase).unitChars (by simpa using hj)
    rw [slice_eq_ok (Int.not_lt.1 hl) (by simpa using hi), hslice]
    exact ⟨problem, rfl, hcategory⟩

/-- A whole text is equal to a part of another one if the other one goes on with it there. -/
theorem compareAt_eq_eq_iff (hi : 0 ≤ i ∧ i ≤ s.units.length) :
    compareAt ignoreCase s i p 0 p.units.length = .ok .eq ↔
      (p.folded ignoreCase).units <+: (s.folded ignoreCase).units.drop i.toNat := by
  have hwhole : ((p.folded ignoreCase).units.drop 0).take p.units.length =
      (p.folded ignoreCase).units := by
    rw [List.drop_zero, List.take_of_length_le (by rw [length_folded])]
  rw [compareAt_eq_ok ignoreCase hw hs hp (Int.natCast_nonneg _) hi (by omega), Except.ok.injEq,
    Std.LawfulEqOrd.compare_eq_iff_eq, Int.toNat_zero, Int.toNat_natCast, hwhole,
    List.prefix_iff_eq_take, length_folded, eq_comm]

end

/-- **Searching is comparing parts.** A text begins with another one of its width if the part of it
at the beginning that is as long is equal to the other one; it ends with it if it is not shorter and
the part at the end is; and it contains it if the part at some place is. Parts can be compared from
every place on that is not behind the end of its text, and everywhere else it is the index that is
out of range, or else the length is negative. -/
theorem search_compareAt (hw : t.width = p.width) (ht : ∀ u ∈ t.units, u < 0x110000)
    (hp : ∀ u ∈ p.units, u < 0x110000) (ignoreCase : Bool) :
    let n : Int := t.units.length
    let k : Int := p.units.length
    (∃ found, startsWith ignoreCase t p = .ok found ∧
      (found = true ↔ compareAt ignoreCase t 0 p 0 k = .ok .eq)) ∧
    (∃ found, endsWith ignoreCase t p = .ok found ∧
      (found = true ↔ k ≤ n ∧ compareAt ignoreCase t (n - k) p 0 k = .ok .eq)) ∧
    (∃ found, t.contains p = .ok found ∧
      (found = true ↔ ∃ i, 0 ≤ i ∧ i ≤ n ∧ compareAt false t i p 0 k = .ok .eq)) ∧
    ∀ i j l : Int,
      ((∃ problem : Problem, compareAt ignoreCase t i p j l = .error (.problem problem) ∧
          problem.category = .indexOutOfRange) ↔
        l < 0 ∨ ¬(0 ≤ i ∧ i ≤ n) ∨ ¬(0 ≤ j ∧ j ≤ k)) ∧
      (0 ≤ l → 0 ≤ i ∧ i ≤ n → 0 ≤ j ∧ j ≤ k →
        ∃ o, compareAt ignoreCase t i p j l = .ok o) := by
  intro n k
  refine ⟨⟨_, startsWith_eq_ok ignoreCase hw ht hp, ?_⟩,
    ⟨_, endsWith_eq_ok ignoreCase hw ht hp, ?_⟩, ⟨_, contains_eq_ok hw ht hp, ?_⟩, ?_⟩
  · rw [decide_eq_true_iff, compareAt_eq_eq_iff ignoreCase hw ht hp (by omega)]
    rfl
  · have hplace : (n - k).toNat =
        (t.folded ignoreCase).units.length - (p.folded ignoreCase).units.length := by
      rw [length_folded, length_folded]
      omega
    rw [decide_eq_true_iff]
    constructor
    · intro hends
      have hle : k ≤ n := by
        have hlength := hends.length_le
        rw [length_folded, length_folded] at hlength
        exact Int.ofNat_le.2 hlength
      refine ⟨hle, (compareAt_eq_eq_iff ignoreCase hw ht hp (by omega)).2 ?_⟩
      rw [hplace, ← List.suffix_iff_eq_drop.1 hends]
    · rintro ⟨hle, hequal⟩
      have hbegins := (compareAt_eq_eq_iff ignoreCase hw ht hp (by omega)).1 hequal
      rw [hplace] at hbegins
      -- what is behind this place is no longer than the other text
      refine List.suffix_iff_eq_drop.2 (hbegins.eq_of_length ?_)
      rw [List.length_drop, length_folded, length_folded]
      omega
  · rw [decide_eq_true_iff, List.infix_iff_prefix_suffix]
    constructor
    · rintro ⟨us, hbegins, hends⟩
      have hle := hends.length_le
      refine ⟨(t.units.length - us.length : ℕ), by omega, by omega, ?_⟩
      refine (compareAt_eq_eq_iff false hw ht hp (by omega)).2 ?_
      rw [Int.toNat_natCast]
      exact List.suffix_iff_eq_drop.1 hends ▸ hbegins
    · rintro ⟨i, hi, hi', hequal⟩
      have hbegins := (compareAt_eq_eq_iff false hw ht hp ⟨hi, hi'⟩).1 hequal
      exact ⟨_, hbegins, List.drop_suffix _ _⟩
  · intro i j l
    have hinside : 0 ≤ l → 0 ≤ i ∧ i ≤ n → 0 ≤ j ∧ j ≤ k →
        ∃ o, compareAt ignoreCase t i p j l = .ok o :=
      fun hl hi hj => ⟨_, compareAt_eq_ok ignoreCase hw ht hp hl hi hj⟩
    refine ⟨⟨?_, compareAt_eq_error ignoreCase hw ht hp⟩, hinside⟩
    rintro ⟨problem, herror, -⟩
    by_contra hrange
    simp only [not_or, not_not, Int.not_lt] at hrange
    obtain ⟨o, ho⟩ := hinside hrange.1 hrange.2.1 hrange.2.2
    cases herror.symm.trans ho

/-- Small letters and capital ones, with capital letters to be found. -/
theorem search_compareAt_letters :
    let t := Container.bytes.pack [0x61, 0x62, 0x41, 0x42]
    let p := Container.byteBuffer.pack [0x41, 0x42]
    startsWith true t p = .ok true ∧ compareAt true t 0 p 0 2 = .ok .eq ∧
      endsWith true t p = .ok true ∧ compareAt true t 2 p 0 2 = .ok .eq ∧
      t.contains p = .ok true ∧ (∃ i, 0 ≤ i ∧ i ≤ 4 ∧ compareAt false t i p 0 2 = .ok .eq) ∧
      (∃ problem : Problem, compareAt true t 5 p 0 2 = .error (.problem problem) ∧
        problem.category = .indexOutOfRange) ∧
      ∃ o, compareAt true t 4 p 1 9 = .ok o := by
  intro t p
  obtain ⟨⟨front, hstarts, hfront⟩, ⟨back, hends, hback⟩, ⟨inside, hcontains, hinside⟩, hrange⟩ :=
    search_compareAt (t := t) (p := p) rfl (by decide) (by decide) true
  obtain rfl : true = front := Except.ok.inj hstarts
  obtain rfl : true = back := Except.ok.inj hends
  obtain rfl : true = inside := Except.ok.inj hcontains
  exact ⟨hstarts, hfront.1 rfl, hends, (hback.1 rfl).2, hcontains, hinside.1 rfl,
    (hrange 5 0 2).1.2 (.inr (.inl (by decide))),
    (hrange 4 1 9).2 (by decide) (by decide) (by decide)⟩

end Text

end UnitText
