import UnitText.Proofs.Number.Digits

/-!
# Reading digits

Digits that were written are read again, up to the character that is no digit.

## Main definitions

- `radixValue?` — the number that a text is in a base, if it is nothing but digits

## Main statements

- `DigitsOf.radixValue?_eq` — the digits of a number are read as that number
- `radixValue?_zeros` — zeros before digits make no difference
- `radixRun_append`, `digitRun_append` — digits are read up to what follows them
-/

namespace UnitText

/-- The number that a text is in a base of at most sixteen, if it is nothing but digits. -/
def radixValue? (base : Nat) (cs : Chars) : Option Nat :=
  let (ds, rest) := radixRun base cs
  if ds = [] ∨ rest ≠ [] then none else some (digitsValue base ds)

variable {base n : Nat} {cs rest : Chars} {ds : List Nat}

/-! ## Digits -/

/-- A decimal digit of any script stands in the run of its zero. -/
theorem exists_start_of_digitIn? {n d : Nat} {starts : List Nat}
    (h : Unicode.digitIn? n starts = some d) : d < 10 ∧ ∃ start ∈ starts, n = start + d := by
  induction starts with
  | nil => cases h
  | cons start starts ih =>
    rw [Unicode.digitIn?] at h
    split at h
    · cases h
    split at h
    · obtain rfl := Option.some.inj h
      exact ⟨by omega, start, List.mem_cons_self, by omega⟩
    · obtain ⟨hd, start', hstart, hn⟩ := ih h
      exact ⟨hd, start', List.mem_cons_of_mem _ hstart, hn⟩

theorem CodePoint.lt_of_digit? {c : CodePoint} {d : Nat} (h : c.digit? = some d) : d < 10 :=
  (exists_start_of_digitIn? h).1

/-- The decimal digits of ASCII. -/
theorem val_of_radixDigit? {c : CodePoint} {d : Nat} (h : radixDigit? 10 c = some d) :
    c.val = 0x30 + d ∧ d < 10 := by
  obtain ⟨hvalue, hd⟩ := Option.filter_eq_some_iff.1 h
  have hd : d < 10 := by simpa using hd
  refine ⟨?_, hd⟩
  split at hvalue
  · next hc =>
    obtain rfl := Option.some.inj hvalue
    omega
  · -- letters are digits from ten on
    split at hvalue
    · obtain rfl := Option.some.inj hvalue
      omega
    · split at hvalue
      · obtain rfl := Option.some.inj hvalue
        omega
      · cases hvalue

theorem digit?_of_radixDigit? {c : CodePoint} {d : Nat} (h : radixDigit? 10 c = some d) :
    c.digit? = some d := by
  obtain ⟨hc, hd⟩ := val_of_radixDigit? h
  simp only [CodePoint.digit?, Unicode.digitZeros, Unicode.digitIn?, hc]
  rw [if_neg (by omega), if_pos (by omega), Nat.add_sub_cancel_left]

theorem map_digit?_of_radixDigit? (h : cs.map (radixDigit? 10) = ds.map some) :
    cs.map CodePoint.digit? = ds.map some := by
  rw [← h]
  refine List.map_congr_left fun c hc => ?_
  obtain ⟨d, -, hd⟩ := List.mem_map.1 (h ▸ List.mem_map_of_mem hc)
  rw [← hd]
  exact digit?_of_radixDigit? hd.symm

/-- Digits are digits or letters of ASCII. -/
theorem bounds_of_radixDigit? {c : CodePoint} {d : Nat} (h : radixDigit? base c = some d) :
    0x30 ≤ c.val ∧ c.val < 0x67 := by
  obtain ⟨hvalue, -⟩ := Option.filter_eq_some_iff.1 h
  split at hvalue
  · omega
  · split at hvalue
    · omega
    · split at hvalue
      · omega
      · cases hvalue

/-- Zero is the same character in all bases. -/
theorem radixDigit?_zero {c : CodePoint} (h : radixDigit? base c = some 0) :
    radixDigit? 10 c = some 0 := by
  obtain ⟨hvalue, -⟩ := Option.filter_eq_some_iff.1 h
  exact Option.filter_eq_some_iff.2 ⟨hvalue, rfl⟩

/-- A digit is read as what it was written for, also if it is a capital. -/
theorem radixDigit?_digitChar {d : Nat} (hbase : base ≤ 16) (hd : d < base) {c : Char}
    (hc : c = d.digitChar ∨ c = d.digitChar.toUpper) :
    radixDigit? base (CodePoint.ofChar c) = some d := by
  have hdigit : ∀ d < 16, radixDigit? 16 (CodePoint.ofChar d.digitChar) = some d ∧
      radixDigit? 16 (CodePoint.ofChar d.digitChar.toUpper) = some d := by decide
  have hsixteen : radixDigit? 16 (CodePoint.ofChar c) = some d := by
    rcases hc with rfl | rfl
    · exact (hdigit d (by omega)).1
    · exact (hdigit d (by omega)).2
  -- the base only decides which of the digits are taken
  have hvalue := (Option.filter_eq_some_iff.1 hsixteen).1
  exact Option.filter_eq_some_iff.2 ⟨hvalue, decide_eq_true hd⟩

/-! ## Runs of digits -/

theorem radixRun_cons {c : CodePoint} {d : Nat} (h : radixDigit? base c = some d) (cs : Chars) :
    radixRun base (c :: cs) = (d :: (radixRun base cs).1, (radixRun base cs).2) := by
  rw [radixRun, h]

theorem radixRun_stop (h : ∀ c ∈ rest.head?, radixDigit? base c = none) :
    radixRun base rest = ([], rest) := by
  cases rest with
  | nil => rfl
  | cons c rest => rw [radixRun, h c rfl]

theorem digitRun_stop (h : ∀ c ∈ rest.head?, c.digit? = none) : digitRun rest = ([], rest) := by
  cases rest with
  | nil => rfl
  | cons c rest => rw [digitRun, h c rfl]

/-- Digits are read up to what follows them. -/
theorem radixRun_append (h : cs.map (radixDigit? base) = ds.map some)
    (hrest : ∀ c ∈ rest.head?, radixDigit? base c = none) :
    radixRun base (cs ++ rest) = (ds, rest) := by
  induction cs generalizing ds with
  | nil =>
    obtain rfl : ds = [] := by simpa using h.symm
    exact radixRun_stop hrest
  | cons c cs ih =>
    cases ds with
    | nil => cases h
    | cons d ds =>
      obtain ⟨hc, hcs⟩ := List.cons.inj h
      rw [List.cons_append, radixRun_cons hc, ih hcs]

theorem digitRun_append (hds : cs.map CodePoint.digit? = ds.map some)
    (hrest : ∀ c ∈ rest.head?, c.digit? = none) : digitRun (cs ++ rest) = (ds, rest) := by
  induction cs generalizing ds with
  | nil =>
    obtain rfl : ds = [] := by simpa using hds.symm
    exact digitRun_stop hrest
  | cons c cs ih =>
    cases ds with
    | nil => cases hds
    | cons d ds =>
      obtain ⟨hc, hcs⟩ := List.cons.inj hds
      rw [List.cons_append, digitRun, hc, ih hcs]

/-- Digits are read as far as there are digits. -/
theorem digitRun_spec (cs : Chars) :
    ∃ front, cs = front ++ (digitRun cs).2 ∧
      front.map CodePoint.digit? = (digitRun cs).1.map some ∧
      ∀ c ∈ (digitRun cs).2.head?, c.digit? = none := by
  induction cs with
  | nil => exact ⟨[], rfl, rfl, by simp [digitRun]⟩
  | cons c cs ih =>
    cases hc : c.digit? with
    | none => exact ⟨[], by simp [digitRun, hc], by simp [digitRun, hc], by simp [digitRun, hc]⟩
    | some d =>
      obtain ⟨front, hcs, hds, hrest⟩ := ih
      refine ⟨c :: front, ?_, ?_, ?_⟩
      · simp only [digitRun, hc, List.cons_append]
        rw [← hcs]
      · simp only [digitRun, hc, List.map_cons, hds]
      · simpa only [digitRun, hc] using hrest

theorem radixRun_spec (base : Nat) (cs : Chars) :
    ∃ front, cs = front ++ (radixRun base cs).2 ∧
      front.map (radixDigit? base) = (radixRun base cs).1.map some := by
  induction cs with
  | nil => exact ⟨[], rfl, rfl⟩
  | cons c cs ih =>
    cases hc : radixDigit? base c with
    | none => exact ⟨[], by simp [radixRun, hc], by simp [radixRun, hc]⟩
    | some d =>
      obtain ⟨front, hcs, hds⟩ := ih
      refine ⟨c :: front, ?_, ?_⟩
      · rw [radixRun_cons hc, List.cons_append, ← hcs]
      · rw [radixRun_cons hc, List.map_cons, List.map_cons, hc, hds]

theorem map_radixDigit?_of_radixRun (h : radixRun base cs = (ds, [])) :
    cs.map (radixDigit? base) = ds.map some := by
  obtain ⟨front, hcs, hds⟩ := radixRun_spec base cs
  rw [h, List.append_nil] at hcs
  rw [hcs, hds, h]

/-- A text is a number in a base if its characters are the digits of that number. -/
theorem radixValue?_eq_some : radixValue? base cs = some n ↔
    ∃ ds, cs.map (radixDigit? base) = ds.map some ∧ ds ≠ [] ∧ digitsValue base ds = n := by
  simp only [radixValue?]
  constructor
  · intro h
    split at h
    · cases h
    · next hrun =>
      simp only [not_or, Decidable.not_not] at hrun
      exact ⟨_, map_radixDigit?_of_radixRun (Prod.ext rfl hrun.2), hrun.1, Option.some.inj h⟩
  · rintro ⟨ds, hds, hne, rfl⟩
    have hrun : radixRun base (cs ++ []) = (ds, []) := radixRun_append hds nofun
    rw [List.append_nil] at hrun
    simp [hrun, hne]

theorem exists_radixDigit? (h : radixValue? base cs = some n) {c : CodePoint} (hc : c ∈ cs) :
    ∃ d, radixDigit? base c = some d := by
  obtain ⟨ds, hds, -, -⟩ := radixValue?_eq_some.1 h
  obtain ⟨d, -, hd⟩ := List.mem_map.1 (hds ▸ List.mem_map_of_mem hc)
  exact ⟨d, hd.symm⟩

/-! ## Digits that were written -/

theorem DigitsOf.map_radixDigit? (h : DigitsOf base n ds) (hbase : base ≤ 16) {shown : Nat → Char}
    (hshown : ∀ d, shown d = d.digitChar ∨ shown d = d.digitChar.toUpper) :
    ((ds.map shown).map CodePoint.ofChar).map (radixDigit? base) = ds.map some := by
  rw [List.map_map, List.map_map]
  exact List.map_congr_left fun d hd => radixDigit?_digitChar hbase (h.lt d hd) (hshown d)

theorem DigitsOf.radixValue?_eq (h : DigitsOf base n ds) (hbase : base ≤ 16) {shown : Nat → Char}
    (hshown : ∀ d, shown d = d.digitChar ∨ shown d = d.digitChar.toUpper) :
    radixValue? base ((ds.map shown).map CodePoint.ofChar) = some n :=
  radixValue?_eq_some.2 ⟨ds, h.map_radixDigit? hbase hshown, h.ne_nil, h.value⟩

/-- Zeros before digits make no difference. -/
theorem radixValue?_zeros (hpos : 0 < base) (hbase : base ≤ 16) (k : Nat)
    (h : radixValue? base cs = some n) :
    radixValue? base (List.replicate k (CodePoint.ofChar '0') ++ cs) = some n := by
  obtain ⟨ds, hds, hne, rfl⟩ := radixValue?_eq_some.1 h
  have hzero : radixDigit? base (CodePoint.ofChar '0') = some 0 :=
    radixDigit?_digitChar hbase hpos (.inl rfl)
  refine radixValue?_eq_some.2 ⟨List.replicate k 0 ++ ds, ?_, by simp [hne], ?_⟩
  · rw [List.map_append, List.map_append, hds, List.map_replicate, List.map_replicate, hzero]
  · exact digitsValue_zeros base k ds

/-- What is zero in one base is zero in decimal. -/
theorem radixValue?_ten_of_zero (hpos : 0 < base) (h : radixValue? base cs = some 0) :
    radixValue? 10 cs = some 0 := by
  obtain ⟨ds, hds, hne, hvalue⟩ := radixValue?_eq_some.1 h
  have hzero : ∀ d ∈ ds, d = 0 := eq_zero_of_digitsValue hpos hvalue
  refine radixValue?_eq_some.2 ⟨ds, ?_, hne, ?_⟩
  · rw [← hds]
    refine List.map_congr_left fun c hc => ?_
    obtain ⟨d, hd, hcd⟩ := List.mem_map.1 (hds ▸ List.mem_map_of_mem hc)
    rw [← hcd, hzero d hd]
    exact radixDigit?_zero (hcd.symm.trans (congrArg some (hzero d hd)))
  · rw [List.eq_replicate_of_mem hzero, ← List.append_nil (List.replicate _ _)]
    exact digitsValue_zeros 10 _ []

end UnitText
