import UnitText.Proofs.Encoding.Width
import UnitText.Proofs.Result
import UnitText.Value.Units

/-!
# Texts that are cut off

A text is cut off behind the last character that there is room for. What is left is a beginning of
the text that is as long as the limit allows: one more character would take too many units. Among
the beginnings of a text there is only one like that, and it grows with the limit.

## Main definitions

- `Width.IsLongest` — the longest beginning of a text that takes at most so many units

## Main statements

- `Width.IsLongest.prefix_of_le` — a greater limit leaves more
- `Width.truncate_eq_ok_iff` — cutting off leaves the longest beginning
- `Width.exists_truncate` — characters that can be held can be cut off
-/

namespace UnitText

namespace Width

variable {w : Width} {c : CodePoint} {cs ds es : Chars} {limit n : Nat}

/-- The count is the sum of the counts of the characters. -/
theorem unitCount_cons_eq_ok_iff :
    w.unitCount (c :: cs) = .ok n ↔
      ∃ m k, w.unitCount [c] = .ok m ∧ w.unitCount cs = .ok k ∧ m + k = n := by
  simp only [unitCount_eq_ok_iff, List.forall_mem_singleton, List.forall_mem_cons]
  have hcons : w.length (c :: cs) = w.length [c] + w.length cs := length_append w [c] cs
  constructor
  · rintro ⟨⟨hc, hcs⟩, hn⟩
    exact ⟨_, _, ⟨hc, rfl⟩, ⟨hcs, rfl⟩, hcons.symm.trans hn⟩
  · rintro ⟨_, _, ⟨hc, rfl⟩, ⟨hcs, rfl⟩, hn⟩
    exact ⟨⟨hc, hcs⟩, hcons.trans hn⟩

/-- A beginning of a text takes no more units than the text. -/
theorem unitCount_le_of_prefix {m : Nat} (h : ds <+: cs) (hds : w.unitCount ds = .ok m)
    (hcs : w.unitCount cs = .ok n) : m ≤ n := by
  obtain ⟨-, rfl⟩ := unitCount_eq_ok_iff.1 hds
  obtain ⟨-, rfl⟩ := unitCount_eq_ok_iff.1 hcs
  obtain ⟨rest, rfl⟩ := h
  rw [length_append]
  exact Nat.le_add_right _ _

/-! ## The longest beginning -/

/-- The characters are the longest beginning of a text that takes at most so many units: the whole
text, or all of it before a character that there is no room for. -/
structure IsLongest (w : Width) (limit : Nat) (cs ds : Chars) : Prop where
  begins : ds <+: cs
  fits : ∃ n, w.unitCount ds = .ok n ∧ n ≤ limit
  full : ds = cs ∨ ∃ c n, ds ++ [c] <+: cs ∧ w.unitCount (ds ++ [c]) = .ok n ∧ limit < n

namespace IsLongest

/-- A greater limit leaves more. -/
theorem prefix_of_le {limit' : Nat} (h : w.IsLongest limit cs ds) (h' : w.IsLongest limit' cs es)
    (hle : limit ≤ limit') : ds <+: es := by
  rcases h'.full with rfl | ⟨c, n, hnext, hn, hlt⟩
  · exact h.begins
  rcases List.prefix_or_prefix_of_prefix h.begins hnext with hshort | hlong
  · -- the only beginning that is longer than `es` is the one that takes too many units
    rcases List.prefix_concat_iff.1 hshort with rfl | hshort
    · obtain ⟨m, hm, hfits⟩ := h.fits
      obtain rfl := Except.ok.inj (hm.symm.trans hn)
      omega
    · exact hshort
  · obtain ⟨m, hm, hfits⟩ := h.fits
    have hcount := unitCount_le_of_prefix hlong hn hm
    omega

theorem nil (w : Width) (limit : Nat) : w.IsLongest limit [] [] where
  begins := List.nil_prefix
  fits := ⟨0, unitCount_eq_ok_iff.2 ⟨List.forall_mem_nil _, rfl⟩, Nat.zero_le _⟩
  full := .inl rfl

/-- Nothing is left if there is no room for the first character. -/
theorem eq_nil_iff (hc : w.unitCount [c] = .ok n) (hlt : limit < n) :
    w.IsLongest limit (c :: cs) ds ↔ ds = [] := by
  constructor
  · intro h
    cases ds with
    | nil => rfl
    | cons d ds =>
      obtain ⟨rfl, -⟩ := List.cons_prefix_cons.1 h.begins
      obtain ⟨m, hm, hfits⟩ := h.fits
      obtain ⟨n', k, hc', -, rfl⟩ := unitCount_cons_eq_ok_iff.1 hm
      obtain rfl := Except.ok.inj (hc'.symm.trans hc)
      omega
  · rintro rfl
    exact {
      begins := List.nil_prefix
      fits := (IsLongest.nil w limit).fits
      full := .inr ⟨c, n, ⟨cs, rfl⟩, hc, hlt⟩ }

/-- A first character that there is room for is left, and takes its units from the limit. -/
theorem cons_iff (hc : w.unitCount [c] = .ok n) (hle : n ≤ limit) :
    w.IsLongest limit (c :: cs) ds ↔ ∃ es, ds = c :: es ∧ w.IsLongest (limit - n) cs es := by
  constructor
  · intro h
    cases ds with
    | nil =>
      rcases h.full with hnil | ⟨d, m, hnext, hm, hlt⟩
      · cases hnil
      · obtain ⟨rfl, -⟩ := List.cons_prefix_cons.1 hnext
        obtain rfl := Except.ok.inj (hm.symm.trans hc)
        omega
    | cons d es =>
      obtain ⟨rfl, hbegins⟩ := List.cons_prefix_cons.1 h.begins
      obtain ⟨m, hm, hfits⟩ := h.fits
      obtain ⟨n', k, hc', hk, rfl⟩ := unitCount_cons_eq_ok_iff.1 hm
      obtain rfl := Except.ok.inj (hc'.symm.trans hc)
      refine ⟨es, rfl, hbegins, ⟨k, hk, by omega⟩, ?_⟩
      rcases h.full with heq | ⟨e, m', hnext, hm', hlt⟩
      · exact .inl (List.cons.inj heq).2
      · obtain ⟨-, hnext⟩ := List.cons_prefix_cons.1 hnext
        obtain ⟨n'', k', hc'', hk', rfl⟩ := unitCount_cons_eq_ok_iff.1 hm'
        obtain rfl := Except.ok.inj (hc''.symm.trans hc)
        exact .inr ⟨e, k', hnext, hk', by omega⟩
  · rintro ⟨es, rfl, h⟩
    obtain ⟨k, hk, hfits⟩ := h.fits
    refine ⟨List.cons_prefix_cons.2 ⟨rfl, h.begins⟩,
      ⟨n + k, unitCount_cons_eq_ok_iff.2 ⟨n, k, hc, hk, rfl⟩, by omega⟩, ?_⟩
    rcases h.full with rfl | ⟨e, k', hnext, hk', hlt⟩
    · exact .inl rfl
    · exact .inr ⟨e, n + k', List.cons_prefix_cons.2 ⟨rfl, hnext⟩,
        unitCount_cons_eq_ok_iff.2 ⟨n, k', hc, hk', rfl⟩, by omega⟩

/-- There is only one longest beginning. -/
theorem unique (h : w.IsLongest limit cs ds) (h' : w.IsLongest limit cs es) : ds = es :=
  (h.prefix_of_le h' le_rfl).eq_of_length_le (h'.prefix_of_le h le_rfl).length_le

/-- In text that takes one unit for each character, units are characters. -/
theorem take (hcs : ∀ c ∈ cs, w.unitCount [c] = .ok 1) (limit : Nat) :
    w.IsLongest limit cs (cs.take limit) := by
  induction cs generalizing limit with
  | nil =>
    rw [List.take_nil]
    exact nil w limit
  | cons c cs ih =>
    obtain ⟨hc, hcs⟩ := List.forall_mem_cons.1 hcs
    cases limit with
    | zero => exact (eq_nil_iff hc Nat.one_pos).2 rfl
    | succ limit => exact (cons_iff hc (Nat.succ_pos limit)).2 ⟨_, rfl, ih hcs limit⟩

/-- A first character that is left, or is too much, can be counted. -/
theorem exists_unitCount (h : w.IsLongest limit (c :: cs) ds) : ∃ n, w.unitCount [c] = .ok n := by
  cases ds with
  | nil =>
    rcases h.full with hnil | ⟨d, n, hnext, hn, -⟩
    · cases hnil
    · obtain ⟨rfl, -⟩ := List.cons_prefix_cons.1 hnext
      exact ⟨n, hn⟩
  | cons d ds =>
    obtain ⟨rfl, -⟩ := List.cons_prefix_cons.1 h.begins
    obtain ⟨m, hm, -⟩ := h.fits
    obtain ⟨n, k, hn, -, -⟩ := unitCount_cons_eq_ok_iff.1 hm
    exact ⟨n, hn⟩

end IsLongest

/-! ## Cutting off -/

/-- Characters are left one by one, as long as there is room. -/
theorem truncate_go_eq_ok_iff :
    truncate.go w limit cs = .ok ds ↔ w.IsLongest limit cs ds := by
  induction cs generalizing limit ds with
  | nil =>
    refine ⟨fun h => ?_, fun h => ?_⟩
    · obtain rfl := Except.ok.inj h
      exact .nil w limit
    · rw [List.prefix_nil.1 h.begins, truncate.go]
  | cons c cs ih =>
    rw [truncate.go]
    cases hc : w.unitCount [c] with
    | error e =>
      refine ⟨nofun, fun h => ?_⟩
      obtain ⟨n, hn⟩ := h.exists_unitCount
      cases hc.symm.trans hn
    | ok n =>
      by_cases hlt : limit < n
      · simp only [if_pos (Int.ofNat_lt.2 hlt), IsLongest.eq_nil_iff hc hlt, Except.ok.injEq,
          eq_comm]
      · have hle : n ≤ limit := Nat.le_of_not_lt hlt
        simp only [if_neg (mt Int.ofNat_lt.1 hlt), ← Int.ofNat_sub hle]
        rw [map_eq_ok, IsLongest.cons_iff hc hle]
        exact ⟨fun ⟨es, hes, h⟩ => ⟨es, h.symm, ih.1 hes⟩,
          fun ⟨es, h, hes⟩ => ⟨es, ih.2 hes, h.symm⟩⟩

/-- Cutting off leaves the longest beginning, and only that. -/
theorem truncate_eq_ok_iff : w.truncate limit cs = .ok ds ↔ w.IsLongest limit cs ds := by
  cases w with
  | narrow => exact truncate_go_eq_ok_iff
  | wide16 => exact truncate_go_eq_ok_iff
  | wide32 =>
    have htake : wide32.truncate limit cs = .ok (cs.take limit) := rfl
    have hlongest : wide32.IsLongest limit cs (cs.take limit) := .take (fun _ _ => rfl) limit
    rw [htake, Except.ok.injEq]
    exact ⟨fun h => h ▸ hlongest, fun h => hlongest.unique h⟩

/-- Characters that can be held can be cut off. -/
theorem exists_truncate (hcs : ∀ c ∈ cs, w.Holds c) (limit : Nat) :
    ∃ ds, w.truncate limit cs = .ok ds := by
  simp only [truncate_eq_ok_iff]
  induction cs generalizing limit with
  | nil => exact ⟨[], .nil w limit⟩
  | cons c cs ih =>
    obtain ⟨hc, hcs⟩ := List.forall_mem_cons.1 hcs
    have hcount : w.unitCount [c] = .ok (w.length [c]) :=
      unitCount_eq_ok (List.forall_mem_singleton.2 hc)
    by_cases hlt : limit < w.length [c]
    · exact ⟨[], (IsLongest.eq_nil_iff hcount hlt).2 rfl⟩
    · obtain ⟨ds, hds⟩ := ih hcs (limit - w.length [c])
      exact ⟨c :: ds, (IsLongest.cons_iff hcount (Nat.le_of_not_lt hlt)).2 ⟨ds, rfl, hds⟩⟩

end Width

end UnitText
