import UnitText.Proofs.Encoding.RoundTrip
import UnitText.Proofs.Result
import UnitText.Value.Split

/-!
# What is split can be put together again

Every separator ends an item, so a text without separators is one item, and a text with a separator
in it is the item before the first one and the items of what stands behind it. A limit stops the
split after that many separators, and what is left is one item, whatever is in it.

## Main definitions

- `Splits` — the items of a sequence of units
- `rejoin` — items with separators put between them
- `SplitsExactly` — what is promised of the items of a text

## Main statements

- `splits_splitUnits` — the items that are computed
- `Splits.length_eq`, `Splits.rejoin_eq` — how many items there are, and what they make
- `Value.split_exact` — texts are split into what they are made of
-/

namespace UnitText

/-- The items of units that are split at separators, where `limit` separators at most are taken. -/
inductive Splits (isSeparator : Nat → Bool) : Option Nat → List Nat → List (List Nat) → Prop where
  | rest {limit : Option Nat} {us : List Nat}
    (h : limit = some 0 ∨ ∀ u ∈ us, isSeparator u = false) : Splits isSeparator limit us [us]
  | cons {limit : Option Nat} {item us : List Nat} {sep : Nat} {items : List (List Nat)}
    (hlimit : limit ≠ some 0) (hitem : ∀ u ∈ item, isSeparator u = false)
    (hsep : isSeparator sep = true) (h : Splits isSeparator (limit.map (· - 1)) us items) :
    Splits isSeparator limit (item ++ sep :: us) (item :: items)

/-- Items with separators put between them, for as long as there are both. -/
def rejoin : List (List Nat) → List Nat → List Nat
  | [], _ => []
  | item :: _, [] => item
  | item :: items, sep :: seps => item ++ sep :: rejoin items seps

/-- The separators of a split: the default ones, if none are given. -/
def effectiveSeparators (seps : List Nat) : List Nat :=
  if seps.isEmpty then defaultSeparators else seps

/-- What is promised of the items of units that are split at separators, where there may be `count`
items at most. -/
structure SplitsExactly (isSeparator : Nat → Bool) (count : Option Nat) (us : List Nat)
    (items : List (List Nat)) : Prop where
  /-- There is one item more than separators, if no count forbids it. -/
  length_eq : items.length =
    match count with
    | none => us.countP isSeparator + 1
    | some n => min n (us.countP isSeparator + 1)
  /-- The separators of the text, as many as are needed, make the text of the items. -/
  rejoin_eq : rejoin items ((us.filter isSeparator).take (items.length - 1)) = us
  /-- No separator is left in an item before the last one. -/
  init_free : ∀ item ∈ items.dropLast, ∀ u ∈ item, isSeparator u = false
  /-- No separator is left in the last item either, if the count does not forbid it. -/
  last_free : (∀ n ∈ count, us.countP isSeparator + 1 ≤ n) →
    ∀ item ∈ items, ∀ u ∈ item, isSeparator u = false

section

variable {isSeparator : Nat → Bool} {limit : Option Nat} {us item : List Nat} {sep : Nat}
  {items : List (List Nat)}

/-! ## The items that are computed -/

/-- What has been read since the last separator belongs to the next item. -/
theorem splits_splitFrom (seen : List Nat) (hseen : ∀ u ∈ seen, isSeparator u = false) :
    Splits isSeparator limit (seen.reverse ++ us)
      (splitFrom isSeparator false limit seen us) := by
  have hreverse : ∀ {seen : List Nat}, (∀ u ∈ seen, isSeparator u = false) →
      ∀ u ∈ seen.reverse, isSeparator u = false := by
    intro seen h u hu
    exact h u (List.mem_reverse.1 hu)
  induction us generalizing seen limit with
  | nil =>
    rw [List.append_nil]
    exact .rest (.inr (hreverse hseen))
  | cons u us ih =>
    rw [splitFrom]
    split
    · next hlimit => exact .rest (.inl hlimit)
    · next hlimit =>
      split
      · next hsep =>
        rw [if_neg (by simp)]
        exact .cons hlimit (hreverse hseen) hsep (ih [] (by simp))
      · next hsep =>
        have hcons : seen.reverse ++ u :: us = (u :: seen).reverse ++ us := by simp
        rw [hcons]
        exact ih _ (List.forall_mem_cons.2 ⟨Bool.eq_false_iff.2 hsep, hseen⟩)

theorem splits_splitUnits (isSeparator : Nat → Bool) (limit : Option Nat) (us : List Nat) :
    Splits isSeparator limit us (splitUnits isSeparator false limit us) :=
  splits_splitFrom [] (by simp)

/-! ## What the items are -/

theorem filter_eq_nil_of_free (h : ∀ u ∈ item, isSeparator u = false) :
    item.filter isSeparator = [] := by
  rw [List.filter_eq_nil_iff]
  intro u hu
  simp [h u hu]

/-- The first separator is that behind the first item. -/
theorem filter_append_cons (hitem : ∀ u ∈ item, isSeparator u = false)
    (hsep : isSeparator sep = true) (us : List Nat) :
    (item ++ sep :: us).filter isSeparator = sep :: us.filter isSeparator := by
  rw [List.filter_append, filter_eq_nil_of_free hitem, List.nil_append,
    List.filter_cons_of_pos hsep]

theorem countP_append_cons (hitem : ∀ u ∈ item, isSeparator u = false)
    (hsep : isSeparator sep = true) (us : List Nat) :
    (item ++ sep :: us).countP isSeparator = us.countP isSeparator + 1 := by
  simp only [List.countP_eq_length_filter, filter_append_cons hitem hsep, List.length_cons]

namespace Splits

theorem ne_nil (h : Splits isSeparator limit us items) : items ≠ [] := by
  cases h <;> exact List.cons_ne_nil _ _

/-- There is an item for each separator that is taken, and one more. -/
theorem length_eq (h : Splits isSeparator limit us items) : items.length =
    match limit with
    | none => us.countP isSeparator + 1
    | some n => min n (us.countP isSeparator) + 1 := by
  induction h with
  | @rest limit us h =>
    rcases h with rfl | hfree
    · simp
    · have hzero : us.countP isSeparator = 0 := by
        rw [List.countP_eq_length_filter, filter_eq_nil_of_free hfree, List.length_nil]
      cases limit <;> simp [hzero]
  | @cons limit item us sep items hlimit hitem hsep _ ih =>
    rw [countP_append_cons hitem hsep, List.length_cons, ih]
    cases limit with
    | none => rfl
    | some n =>
      have hpos : n ≠ 0 := fun hn => hlimit (congrArg some hn)
      show min (n - 1) (us.countP isSeparator) + 1 + 1 = min n (us.countP isSeparator + 1) + 1
      omega

/-- The items and the separators that were taken are all there is. -/
theorem rejoin_eq (h : Splits isSeparator limit us items) :
    rejoin items ((us.filter isSeparator).take (items.length - 1)) = us := by
  induction h with
  | rest => rfl
  | cons hlimit hitem hsep h ih =>
    obtain ⟨n, hn⟩ := Nat.exists_eq_succ_of_ne_zero (List.length_pos_iff.2 h.ne_nil).ne'
    rw [hn, Nat.succ_sub_one] at ih
    rw [filter_append_cons hitem hsep, List.length_cons, hn, Nat.add_sub_cancel,
      List.take_succ_cons, rejoin, ih]

theorem init_free (h : Splits isSeparator limit us items) :
    ∀ item ∈ items.dropLast, ∀ u ∈ item, isSeparator u = false := by
  induction h with
  | rest => simp
  | cons hlimit hitem hsep h ih =>
    rw [List.dropLast_cons_of_ne_nil h.ne_nil]
    exact List.forall_mem_cons.2 ⟨hitem, ih⟩

/-- No separator is left if as many may be taken as there are. -/
theorem free (h : Splits isSeparator limit us items)
    (hlimit : ∀ n ∈ limit, us.countP isSeparator ≤ n) :
    ∀ item ∈ items, ∀ u ∈ item, isSeparator u = false := by
  induction h with
  | rest h =>
    intro item hmem
    obtain rfl := List.mem_singleton.1 hmem
    rcases h with rfl | hfree
    · -- a text that has no separators at all
      have hzero := Nat.le_zero.1 (hlimit 0 rfl)
      intro u hu
      exact Bool.eq_false_iff.2 (List.countP_eq_zero.1 hzero u hu)
    · exact hfree
  | @cons limit item us sep items _ hitem hsep _ ih =>
    refine List.forall_mem_cons.2 ⟨hitem, ih ?_⟩
    intro n hn
    obtain ⟨k, hk, rfl⟩ := Option.map_eq_some_iff.1 hn
    have hle := hlimit k hk
    rw [countP_append_cons hitem hsep] at hle
    omega

end Splits

/-- A count of items is one more than the separators that may be taken. -/
theorem Splits.exactly {count : Option Nat} (hcount : ∀ n ∈ count, 1 ≤ n)
    (h : Splits isSeparator (count.map (· - 1)) us items) :
    SplitsExactly isSeparator count us items where
  length_eq := by
    rw [h.length_eq]
    cases count with
    | none => rfl
    | some n =>
      have hn := hcount n rfl
      show min (n - 1) _ + 1 = min n _
      omega
  rejoin_eq := h.rejoin_eq
  init_free := h.init_free
  last_free := by
    intro hle
    refine h.free fun k hk => ?_
    obtain ⟨n, hn, rfl⟩ := Option.map_eq_some_iff.1 hk
    have hn := hle n hn
    omega

/-! ## A single separator -/

/-- Equal separators between items are one that is put between all of them. -/
theorem rejoin_replicate (items : List (List Nat)) (sep : Nat) :
    rejoin items (List.replicate (items.length - 1) sep) = [sep].intercalate items := by
  induction items with
  | nil => rfl
  | cons item items ih =>
    cases items with
    | nil => simp [rejoin, List.intercalate]
    | cons next items =>
      have hlength : (item :: next :: items).length - 1 = (next :: items).length - 1 + 1 := rfl
      rw [hlength, List.replicate_succ, rejoin, ih]
      simp [List.intercalate, List.intersperse]

theorem SplitsExactly.intercalate_eq {count : Option Nat}
    (h : SplitsExactly isSeparator count us items)
    (hsep : ∀ u, isSeparator u = true → u = sep) : [sep].intercalate items = us := by
  have htaken : (us.filter isSeparator).take (items.length - 1) =
      List.replicate (items.length - 1) sep := by
    rw [List.eq_replicate_iff]
    refine ⟨?_, fun u hu => hsep u ((List.mem_filter.1 (List.mem_of_mem_take hu)).2)⟩
    rw [List.length_take, ← List.countP_eq_length_filter]
    have hlength := h.length_eq
    cases count <;> simp only at hlength <;> omega
  rw [← rejoin_replicate, ← htaken, h.rejoin_eq]

end

/-! ## Texts -/

theorem Text.mapM_readNumber_eq_ok {ns : List Nat} (h : ∀ n ∈ ns, n < 0x110000) :
    ns.mapM readNumber = .ok (ns.map CodePoint.ofNat) := by
  refine mapM_eq_ok fun n hn => ?_
  simp only [readNumber, CodePoint.ofNat?, CodePoint.ofNat, dif_pos (h n hn)]

/-- The default separators are ASCII. -/
theorem effectiveSeparators_lt {seps : List Nat} {n : Nat} (hn : 0x80 ≤ n)
    (h : ∀ u ∈ seps, u < n) : ∀ u ∈ effectiveSeparators seps, u < n := by
  have hdefault : ∀ u ∈ defaultSeparators, u < 0x80 := by decide
  rw [effectiveSeparators]
  split
  · exact fun u hu => (hdefault u hu).trans_le hn
  · exact h

/-- Units of a text fit into a text of the same container. -/
theorem Text.units_pack_of_mem {t : Text} {items : List (List Nat)}
    (h : ∀ item ∈ items, ∀ u ∈ item, u ∈ t.units) :
    (items.map t.container.pack).map Text.units = items := by
  rw [List.map_map]
  refine (List.map_congr_left fun item hitem => ?_).trans (List.map_id items)
  exact Container.units_pack fun u hu => t.units_lt u (h item hitem u hu)

/-- Nothing is in the items but what is in the text. -/
theorem Splits.subset {isSeparator : Nat → Bool} {limit : Option Nat} {us : List Nat}
    {items : List (List Nat)} (h : Splits isSeparator limit us items) :
    ∀ item ∈ items, ∀ u ∈ item, u ∈ us := by
  induction h with
  | rest => simp
  | cons _ _ _ _ ih =>
    refine List.forall_mem_cons.2 ⟨fun u hu => List.mem_append_left _ hu, ?_⟩
    intro item hitem u hu
    exact List.mem_append_right _ (List.mem_cons_of_mem _ (ih item hitem u hu))

section

variable {t : Text} {seps : List Nat}

/-- What a text is split into, if the count leaves anything to split. -/
theorem Text.split_eq_ok {count : Option Nat} (hseps : ∀ u ∈ seps, u < 0x110000)
    (ht : ∀ u ∈ t.units, u < 0x110000) (hcount : ∀ n ∈ count, 2 ≤ n) (removeEmpty : Bool) :
    t.split seps count removeEmpty =
      .ok ((splitUnits (effectiveSeparators seps).contains removeEmpty (count.map (· - 1))
        t.units).map t.container.pack) := by
  have hzero : count ≠ some 0 := fun h => absurd (hcount 0 h) (by decide)
  have hone : count ≠ some 1 := fun h => absurd (hcount 1 h) (by decide)
  rw [split, if_neg hzero, if_neg hone]
  refine bind_eq_ok.2 ⟨_, mapM_readNumber_eq_ok (effectiveSeparators_lt (by decide) hseps), ?_⟩
  exact bind_eq_ok.2 ⟨_, mapM_readUnit_eq_ok ht, rfl⟩

/-- A text is split into texts of its own container. -/
theorem Text.exists_split_eq_ok {count : Option Nat} (hseps : ∀ u ∈ seps, u < 0x110000)
    (ht : ∀ u ∈ t.units, u < 0x110000) (hcount : ∀ n ∈ count, 2 ≤ n) :
    ∃ items : List Text, t.split seps count false = .ok items ∧
      (∀ item ∈ items, item.container = t.container) ∧
      SplitsExactly (effectiveSeparators seps).contains count t.units (items.map Text.units) := by
  have hsplits := splits_splitUnits (effectiveSeparators seps).contains (count.map (· - 1)) t.units
  refine ⟨_, split_eq_ok hseps ht hcount false, ?_, ?_⟩
  · intro item hitem
    obtain ⟨us, -, rfl⟩ := List.mem_map.1 hitem
    rfl
  · rw [units_pack_of_mem hsplits.subset]
    exact hsplits.exactly fun n hn => Nat.le_of_succ_le (hcount n hn)

theorem two_le_toNat_of_mem {count : Option Int} (h : ∀ n ∈ count, 2 ≤ n) :
    ∀ n ∈ count.map Int.toNat, 2 ≤ n := by
  intro k hk
  obtain ⟨n, hn, rfl⟩ := Option.map_eq_some_iff.1 hk
  have hn := h n hn
  omega

/-- A negative count is a problem, whatever is to be split. -/
theorem Value.split_of_neg {v : Value} {n : Int} (hn : n < 0) (separators : Separators)
    (removeEmpty : Bool) :
    v.split separators (some n) removeEmpty = .error (.problem (.negativeCount n)) := by
  unfold split
  simp only [if_pos hn]
  rfl

/-- With a count that leaves anything to split, separators and text are looked at. -/
theorem Value.split_of_two_le {separators : Separators} {count : Option Int}
    (hcount : ∀ n ∈ count, 2 ≤ n) (removeEmpty : Bool) :
    Value.split (.text t) separators count removeEmpty = do
      let units ← separators.units t.width
      let items ← t.split units (count.map Int.toNat) removeEmpty
      return items.map Value.text := by
  cases count with
  | none => rfl
  | some n =>
    have hn := hcount n rfl
    unfold split
    simp only [if_neg (show ¬n < 0 by omega), if_neg (show ¬n = 0 by omega),
      if_neg (show ¬n = 1 by omega)]
    rfl

theorem Value.split_eq {separators : Separators} {count : Option Int}
    (hseps : separators.units t.width = .ok seps) (hcount : ∀ n ∈ count, 2 ≤ n)
    (removeEmpty : Bool) :
    Value.split (.text t) separators count removeEmpty =
      (t.split seps (count.map Int.toNat) removeEmpty).map (List.map .text) := by
  rw [split_of_two_le hcount, hseps]
  rfl

/-- The separators that are given are used, if there are any. -/
theorem contains_effectiveSeparators {sep : Nat} (hne : seps ≠ []) (hsep : ∀ u ∈ seps, u = sep)
    (u : Nat) (hu : (effectiveSeparators seps).contains u = true) : u = sep := by
  rw [effectiveSeparators, if_neg (by simpa using hne)] at hu
  exact hsep u (List.contains_iff_mem.1 hu)

/-- **Splitting loses and invents nothing.** A text of any container is split at valid separators
into texts of the same container, one more than there are separators, or as many as the count
allows. The items and the separators of the text between them are the units of the text. No item
before the last has a separator in it, nor has the last one, if the count does not stop the split.
So items that were split off at a single separator and are joined by it are the text. -/
theorem Value.split_exact {separators : Separators} (hvalid : separators.units t.width = .ok seps)
    (hseps : ∀ u ∈ seps, u < 0x110000) (ht : ∀ u ∈ t.units, u < 0x110000) :
    (∀ count : Option Int, (∀ n ∈ count, 2 ≤ n) → ∃ items : List Text,
      Value.split (.text t) separators count false = .ok (items.map .text) ∧
      (∀ item ∈ items, item.container = t.container) ∧
      SplitsExactly (effectiveSeparators seps).contains (count.map Int.toNat) t.units
        (items.map Text.units)) ∧
    (∀ (sep : Nat) (count : Option Int), seps ≠ [] → (∀ u ∈ seps, u = sep) →
      (∀ n ∈ count, 1 ≤ n) → ∃ items : List Text,
        Value.split (.text t) separators count false = .ok (items.map .text) ∧
        (∀ item ∈ items, item.container = t.container) ∧
        [sep].intercalate (items.map Text.units) = t.units) := by
  have hexact : ∀ count : Option Int, (∀ n ∈ count, 2 ≤ n) → ∃ items : List Text,
      Value.split (.text t) separators count false = .ok (items.map .text) ∧
      (∀ item ∈ items, item.container = t.container) ∧
      SplitsExactly (effectiveSeparators seps).contains (count.map Int.toNat) t.units
        (items.map Text.units) := by
    intro count hcount
    obtain ⟨items, hsplit, hcontainer, hitems⟩ :=
      Text.exists_split_eq_ok hseps ht (two_le_toNat_of_mem hcount)
    refine ⟨items, ?_, hcontainer, hitems⟩
    rw [split_eq hvalid hcount, hsplit]
    rfl
  refine ⟨hexact, ?_⟩
  intro sep count hne hsep hcount
  by_cases hone : count = some 1
  · -- the text is its only item
    subst hone
    exact ⟨[t], rfl, by simp, by simp [List.intercalate]⟩
  · have hcount' : ∀ n ∈ count, 2 ≤ n := by
      intro n hn
      have hpos := hcount n hn
      have hn : n ≠ 1 := fun h => hone (h ▸ hn)
      omega
    obtain ⟨items, hsplit, hcontainer, hitems⟩ := hexact count hcount'
    exact ⟨items, hsplit, hcontainer,
      hitems.intercalate_eq (contains_effectiveSeparators hne hsep)⟩

/-- Bytes with separators at the beginning and side by side, split off two times. -/
theorem Value.split_exact_two_commas :
    (Separators.list [.integer 44]).units .narrow = .ok [44] ∧ (∀ u ∈ [44], u < 0x110000) ∧
    (∀ u ∈ (Container.bytes.pack [44, 97, 44, 44, 98]).units, u < 0x110000) ∧
    (∃ items : List Text, Value.split (.text (Container.bytes.pack [44, 97, 44, 44, 98]))
        (.list [.integer 44]) (some 3) false = .ok (items.map .text) ∧
      (∀ item ∈ items, item.container = .bytes) ∧
      SplitsExactly (effectiveSeparators [44]).contains (some 3) [44, 97, 44, 44, 98]
        (items.map Text.units)) ∧
    ∃ items : List Text, Value.split (.text (Container.bytes.pack [44, 97, 44, 44, 98]))
        (.list [.integer 44]) (some 1) false = .ok (items.map .text) ∧
      (∀ item ∈ items, item.container = .bytes) ∧
      [44].intercalate (items.map Text.units) = [44, 97, 44, 44, 98] := by
  have hvalid : (Separators.list [.integer 44]).units .narrow = .ok [44] := by decide +kernel
  have hseps : ∀ u ∈ [44], u < 0x110000 := by decide
  have ht : ∀ u ∈ (Container.bytes.pack [44, 97, 44, 44, 98]).units, u < 0x110000 := by decide
  obtain ⟨hexact, hsingle⟩ :=
    Value.split_exact (t := Container.bytes.pack [44, 97, 44, 44, 98]) hvalid hseps ht
  refine ⟨hvalid, hseps, ht, hexact (some 3) ?_, hsingle 44 (some 1) ?_ ?_ ?_⟩
  · rintro _ ⟨⟩
    decide
  · decide
  · simp
  · rintro _ ⟨⟩
    decide

end

end UnitText
