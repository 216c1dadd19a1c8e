import UnitText.Proofs.Text.Items
import UnitText.Proofs.Text.Split
import Mathlib.Data.List.DropRight
import Mathlib.Logic.Function.Iterate

/-!
# Splits without empty items

To leave empty items out of a split is to filter them out of the full one. Under a limit it comes to
the same for as many items as are split off; what stands behind the last of them is not looked at,
and is one more item unless there is nothing. So a limit makes no difference if it leaves room for
that item and for one more, but a limit with just one item to spare can show the separators that a
text ends with.

## Main definitions

- `behindFirst` — the units behind the first item that is not empty
- `StandsBehind` — what stands behind the separator after some items
- `LimitsTo` — what is promised of a limited split without empty items
- `Text.validSeparators` — the separators of a split that nothing is wrong with

## Main statements

- `splitUnits_true_none` — leaving empty items out is filtering
- `splitUnits_true_some` — what a limit leaves
- `Value.split_filters` — texts are split without empty items
- `Value.split_spare` — counts that are not needed
-/

namespace UnitText

variable {isSeparator : Nat → Bool} {us item : List Nat} {sep n : Nat}

/-! ## Filtering -/

theorem lastItem_false (us : List Nat) : lastItem false us = [us] := by simp [lastItem]

theorem lastItem_true_nil : lastItem true [] = [] := rfl

theorem lastItem_true (h : us ≠ []) : lastItem true us = [us] := by simp [lastItem, h]

/-- **Leaving empty items out is filtering.** -/
theorem splitUnits_true_none (isSeparator : Nat → Bool) (us : List Nat) :
    splitUnits isSeparator true none us =
      (splitUnits isSeparator false none us).filter (· ≠ []) := by
  induction us using cut_induction isSeparator with
  | free us hfree =>
    rw [splitUnits_of_free hfree, splitUnits_of_free hfree, lastItem_false]
    by_cases hus : us = []
    · rw [hus]
      rfl
    · rw [lastItem_true hus, List.filter_cons_of_pos (by simpa using hus), List.filter_nil]
  | cut item sep us hitem hsep ih =>
    rw [splitUnits_first (by simp) hitem hsep, splitUnits_first (by simp) hitem hsep,
      if_neg (by simp : ¬(false = true ∧ item = []))]
    by_cases hempty : item = []
    · rw [if_pos ⟨rfl, hempty⟩, List.filter_cons_of_neg (by simpa using hempty), ih]
      rfl
    · rw [if_neg (by simp [hempty]), List.filter_cons_of_pos (by simpa using hempty)]
      exact congrArg (item :: ·) ih

theorem splitUnits_true_of_free (hfree : ∀ u ∈ us, isSeparator u = false) (hus : us ≠ [])
    (limit : Option Nat) : splitUnits isSeparator true limit us = [us] := by
  rw [splitUnits_of_free hfree, lastItem_true hus]

/-- A separator at the beginning ends no item. -/
theorem splitUnits_true_cons {limit : Option Nat} (hlimit : limit ≠ some 0)
    (hsep : isSeparator sep = true) (us : List Nat) :
    splitUnits isSeparator true limit (sep :: us) = splitUnits isSeparator true limit us := by
  exact (splitUnits_first hlimit (List.forall_mem_nil _) hsep us).trans (if_pos ⟨rfl, rfl⟩)

theorem splitUnits_true_append_cons {limit : Option Nat} (hlimit : limit ≠ some 0)
    (hitem : ∀ u ∈ item, isSeparator u = false) (hne : item ≠ []) (hsep : isSeparator sep = true)
    (us : List Nat) : splitUnits isSeparator true limit (item ++ sep :: us) =
      item :: splitUnits isSeparator true (limit.map (· - 1)) us := by
  rw [splitUnits_first hlimit hitem hsep, if_neg fun h => hne h.2]

/-- Where no item is left, there are only separators. -/
theorem splitUnits_true_none_eq_nil_iff :
    splitUnits isSeparator true none us = [] ↔ ∀ u ∈ us, isSeparator u = true := by
  induction us using cut_induction isSeparator with
  | free us hfree =>
    by_cases hus : us = []
    · simp [hus, splitUnits, splitFrom, lastItem]
    · obtain ⟨u, us, rfl⟩ := List.exists_cons_of_ne_nil hus
      rw [splitUnits_true_of_free hfree hus]
      exact iff_of_false (List.cons_ne_nil _ _) fun h => by
        simp [h u List.mem_cons_self] at hfree
  | cut item sep us hitem hsep ih =>
    by_cases hempty : item = []
    · rw [hempty, List.nil_append, splitUnits_true_cons (by simp) hsep, ih, List.forall_mem_cons]
      exact ⟨fun h => ⟨hsep, h⟩, And.right⟩
    · obtain ⟨u, item, rfl⟩ := List.exists_cons_of_ne_nil hempty
      rw [splitUnits_true_append_cons (by simp) hitem hempty hsep]
      exact iff_of_false (List.cons_ne_nil _ _) fun h => by
        simp [h u List.mem_cons_self] at hitem

/-! ## What a limit leaves -/

/-- The units behind the first item that is not empty and the separator that ends it. -/
def behindFirst (isSeparator : Nat → Bool) (us : List Nat) : List Nat :=
  ((us.dropWhile isSeparator).dropWhile fun u => !isSeparator u).tail

theorem behindFirst_of_free (hfree : ∀ u ∈ us, isSeparator u = false) :
    behindFirst isSeparator us = [] := by
  have hdrop : us.dropWhile isSeparator = us := by
    cases us with
    | nil => rfl
    | cons u us => rw [List.dropWhile_cons_of_neg (by simp [hfree u List.mem_cons_self])]
  have hall : us.dropWhile (fun u => !isSeparator u) = [] :=
    List.dropWhile_eq_nil_iff.2 fun u hu => by simp [hfree u hu]
  rw [behindFirst, hdrop, hall, List.tail_nil]

theorem behindFirst_cons (hsep : isSeparator sep = true) (us : List Nat) :
    behindFirst isSeparator (sep :: us) = behindFirst isSeparator us := by
  rw [behindFirst, List.dropWhile_cons_of_pos hsep, behindFirst]

theorem behindFirst_append_cons (hitem : ∀ u ∈ item, isSeparator u = false) (hne : item ≠ [])
    (hsep : isSeparator sep = true) (us : List Nat) :
    behindFirst isSeparator (item ++ sep :: us) = us := by
  obtain ⟨u, item, rfl⟩ := List.exists_cons_of_ne_nil hne
  have hall : ∀ v ∈ u :: item, (!isSeparator v) = true := fun v hv => by simp [hitem v hv]
  rw [behindFirst, List.cons_append,
    List.dropWhile_cons_of_neg (by simp [hitem u List.mem_cons_self]), ← List.cons_append,
    List.dropWhile_append_of_pos hall, List.dropWhile_cons_of_neg (by simp [hsep]), List.tail_cons]

theorem behindFirst_iterate_nil (isSeparator : Nat → Bool) (n : Nat) :
    (behindFirst isSeparator)^[n] [] = [] := by
  induction n with
  | zero => rfl
  | succ n ih => rwa [Function.iterate_succ_apply]

/-- A limited split gives as many of the items as the limit says, and what stands behind them. -/
theorem splitUnits_true_some (isSeparator : Nat → Bool) (n : Nat) (us : List Nat) :
    splitUnits isSeparator true (some n) us =
      (splitUnits isSeparator true none us).take n ++
        lastItem true ((behindFirst isSeparator)^[n] us) := by
  induction us using cut_induction isSeparator generalizing n with
  | free us hfree =>
    cases n with
    | zero => rw [splitUnits_zero, List.take_zero, List.nil_append, Function.iterate_zero_apply]
    | succ n =>
      rw [splitUnits_of_free hfree, splitUnits_of_free hfree, Function.iterate_succ_apply,
        behindFirst_of_free hfree, behindFirst_iterate_nil, lastItem_true_nil, List.append_nil]
      by_cases hus : us = []
      · rw [hus]
        rfl
      · rw [lastItem_true hus, List.take_succ_cons, List.take_nil]
  | cut item sep us hitem hsep ih =>
    cases n with
    | zero => rw [splitUnits_zero, List.take_zero, List.nil_append, Function.iterate_zero_apply]
    | succ n =>
      by_cases hempty : item = []
      · rw [hempty, List.nil_append, splitUnits_true_cons (by simp) hsep,
          splitUnits_true_cons (by simp) hsep, Function.iterate_succ_apply,
          behindFirst_cons hsep, ← Function.iterate_succ_apply, ih]
      · rw [splitUnits_true_append_cons (by simp) hitem hempty hsep,
          splitUnits_true_append_cons (by simp) hitem hempty hsep, Function.iterate_succ_apply,
          behindFirst_append_cons hitem hempty hsep, List.take_succ_cons, List.cons_append,
          Option.map_some, Nat.add_sub_cancel, ih]
        rfl

/-- The units `rest` stand behind the separator that ended the last of some items, the first ones
of `us` that are not empty. -/
def StandsBehind (isSeparator : Nat → Bool) (us : List Nat) (items : List (List Nat))
    (rest : List Nat) : Prop :=
  ∃ before last sep, us = before ++ last ++ sep :: rest ∧ isSeparator sep = true ∧
    items.getLast? = some last ∧ splitUnits isSeparator true none (before ++ last) = items

/-- What a limit leaves stands behind the items that were split off. -/
theorem standsBehind_iterate (hn : n ≠ 0) (h : (behindFirst isSeparator)^[n] us ≠ []) :
    StandsBehind isSeparator us ((splitUnits isSeparator true none us).take n)
      ((behindFirst isSeparator)^[n] us) := by
  induction us using cut_induction isSeparator generalizing n with
  | free us hfree =>
    obtain ⟨n, rfl⟩ := Nat.exists_eq_succ_of_ne_zero hn
    rw [Function.iterate_succ_apply, behindFirst_of_free hfree, behindFirst_iterate_nil] at h
    exact absurd rfl h
  | cut item sep us hitem hsep ih =>
    obtain ⟨n, rfl⟩ := Nat.exists_eq_succ_of_ne_zero hn
    by_cases hempty : item = []
    · subst hempty
      rw [List.nil_append, Function.iterate_succ_apply, behindFirst_cons hsep,
        ← Function.iterate_succ_apply] at h ⊢
      obtain ⟨before, last, sep', hus, hsep', hlast, hitems⟩ := ih hn h
      refine ⟨sep :: before, last, sep', congrArg (sep :: ·) hus, hsep', ?_, ?_⟩
      · rwa [splitUnits_true_cons (by simp) hsep]
      · rw [List.cons_append, splitUnits_true_cons (by simp) hsep, hitems,
          splitUnits_true_cons (by simp) hsep]
    · rw [Function.iterate_succ_apply, behindFirst_append_cons hitem hempty hsep] at h ⊢
      rw [splitUnits_true_append_cons (by simp) hitem hempty hsep, List.take_succ_cons]
      by_cases hzero : n = 0
      · -- the item is the last one that was split off
        subst hzero
        refine ⟨[], item, sep, rfl, hsep, by simp, ?_⟩
        rw [List.nil_append, splitUnits_true_of_free hitem hempty, List.take_zero]
      · obtain ⟨before, last, sep', hus, hsep', hlast, hitems⟩ := ih hzero h
        refine ⟨item ++ sep :: before, last, sep', ?_, hsep', ?_, ?_⟩
        · nth_rewrite 1 [hus]
          simp
        · obtain ⟨front, hfront⟩ := List.getLast?_eq_some_iff.1 hlast
          show (item :: (splitUnits isSeparator true none us).take n).getLast? = some last
          rw [hfront, ← List.cons_append, List.getLast?_concat]
        · rw [List.append_assoc, List.cons_append,
            splitUnits_true_append_cons (by simp) hitem hempty hsep]
          exact congrArg (item :: ·) hitems

/-- Items that are left are not given up by a limit. -/
theorem iterate_ne_nil (h : n < (splitUnits isSeparator true none us).length) :
    (behindFirst isSeparator)^[n] us ≠ [] := by
  induction us using cut_induction isSeparator generalizing n with
  | free us hfree =>
    by_cases hus : us = []
    · rw [hus] at h
      exact absurd h (Nat.not_lt_zero n)
    · rw [splitUnits_true_of_free hfree hus, List.length_singleton, Nat.lt_one_iff] at h
      rwa [h, Function.iterate_zero_apply]
  | cut item sep us hitem hsep ih =>
    cases n with
    | zero => simp
    | succ n =>
      rw [Function.iterate_succ_apply]
      by_cases hempty : item = []
      · rw [hempty, List.nil_append, splitUnits_true_cons (by simp) hsep] at h
        rw [hempty, List.nil_append, behindFirst_cons hsep, ← Function.iterate_succ_apply]
        exact ih h
      · rw [splitUnits_true_append_cons (by simp) hitem hempty hsep, List.length_cons,
          Nat.add_lt_add_iff_right] at h
        rw [behindFirst_append_cons hitem hempty hsep]
        exact ih h

/-! ### The separators at the end -/

theorem rtakeWhile_append_of_all (hitem : ∀ u ∈ item, isSeparator u = false)
    (hus : ∀ u ∈ us, isSeparator u = true) : (item ++ us).rtakeWhile isSeparator = us := by
  have hnone : item.reverse.takeWhile isSeparator = [] := by
    cases hreverse : item.reverse with
    | nil => rfl
    | cons u front =>
      have hu : u ∈ item := List.mem_reverse.1 (hreverse ▸ List.mem_cons_self)
      rw [List.takeWhile_cons_of_neg (by simp [hitem u hu])]
  rw [List.rtakeWhile, List.reverse_append,
    List.takeWhile_append_of_pos fun u hu => hus u (List.mem_reverse.1 hu), hnone, List.append_nil,
    List.reverse_reverse]

theorem rtakeWhile_append_of_not_all (front : List Nat) (hus : ¬∀ u ∈ us, isSeparator u = true) :
    (front ++ us).rtakeWhile isSeparator = us.rtakeWhile isSeparator := by
  have hlength : (us.reverse.takeWhile isSeparator).length ≠ us.reverse.length := by
    intro h
    have hall := List.takeWhile_eq_self_iff.1 ((List.takeWhile_prefix _).eq_of_length h)
    exact hus fun u hu => hall u (List.mem_reverse.2 hu)
  rw [List.rtakeWhile, List.reverse_append, List.takeWhile_append, if_neg hlength, List.rtakeWhile]

/-- Behind the last item there are the separators that the units end with, but for the first. -/
theorem iterate_length_eq (h : splitUnits isSeparator true none us ≠ []) :
    (behindFirst isSeparator)^[(splitUnits isSeparator true none us).length] us =
      (us.rtakeWhile isSeparator).tail := by
  induction us using cut_induction isSeparator with
  | free us hfree =>
    have hus : us ≠ [] := by
      rintro rfl
      exact h rfl
    have htrailing := rtakeWhile_append_of_all hfree (List.forall_mem_nil _)
    rw [List.append_nil] at htrailing
    rw [splitUnits_true_of_free hfree hus, List.length_singleton, Function.iterate_one,
      behindFirst_of_free hfree, htrailing, List.tail_nil]
  | cut item sep us hitem hsep ih =>
    by_cases hempty : item = []
    · rw [hempty, List.nil_append, splitUnits_true_cons (by simp) hsep] at h ⊢
      obtain ⟨n, hn⟩ := Nat.exists_eq_succ_of_ne_zero (List.length_pos_iff.2 h).ne'
      have htrailing := rtakeWhile_append_of_not_all [sep] (mt splitUnits_true_none_eq_nil_iff.2 h)
      rw [List.singleton_append] at htrailing
      rw [htrailing, ← ih h, hn, Function.iterate_succ_apply, behindFirst_cons hsep,
        ← Function.iterate_succ_apply]
    · rw [splitUnits_true_append_cons (by simp) hitem hempty hsep, List.length_cons,
        Function.iterate_succ_apply, behindFirst_append_cons hitem hempty hsep, Option.map_none]
      by_cases hlast : splitUnits isSeparator true none us = []
      · -- the item is the last one, and only separators stand behind it
        have hall := splitUnits_true_none_eq_nil_iff.1 hlast
        rw [hlast, rtakeWhile_append_of_all hitem (List.forall_mem_cons.2 ⟨hsep, hall⟩)]
        rfl
      · have hnot := mt splitUnits_true_none_eq_nil_iff.2 hlast
        rw [ih hlast, List.append_cons, rtakeWhile_append_of_not_all _ hnot]

/-! ### Counts -/

/-- What is promised of the items of a limited split without empty items, where `pieces` are those
of the split without a limit. -/
structure LimitsTo (isSeparator : Nat → Bool) (count : Nat) (us : List Nat)
    (pieces items : List (List Nat)) : Prop where
  length_le : items.length ≤ count
  ne_nil : ∀ item ∈ items, item ≠ []
  /-- All but one of the items that are allowed are the first of the pieces. -/
  take_eq : items.take (min (count - 1) pieces.length) = pieces.take (count - 1)
  /-- One more item is what stands behind them, and there is none beyond it. -/
  rest : min (count - 1) pieces.length < items.length → ∃ rest,
    items = pieces.take (count - 1) ++ [rest] ∧
      StandsBehind isSeparator us (pieces.take (count - 1)) rest
  /-- Where pieces are left, there is one more item. -/
  count_eq : count ≤ pieces.length → items.length = count

theorem limitsTo_splitUnits {count : Nat} (hcount : 2 ≤ count) (us : List Nat) :
    LimitsTo isSeparator count us (splitUnits isSeparator true none us)
      (splitUnits isSeparator true (some (count - 1)) us) := by
  have hpieces : ∀ item ∈ splitUnits isSeparator true none us, item ≠ [] := by
    rw [splitUnits_true_none]
    exact fun item hitem => by simpa using List.of_mem_filter hitem
  have hstands : (behindFirst isSeparator)^[count - 1] us ≠ [] → StandsBehind isSeparator us
      ((splitUnits isSeparator true none us).take (count - 1))
      ((behindFirst isSeparator)^[count - 1] us) := standsBehind_iterate (by omega)
  have hleft : count - 1 < (splitUnits isSeparator true none us).length →
      (behindFirst isSeparator)^[count - 1] us ≠ [] := iterate_ne_nil
  rw [splitUnits_true_some]
  generalize splitUnits isSeparator true none us = pieces at *
  generalize (behindFirst isSeparator)^[count - 1] us = rest at *
  have hlength : (pieces.take (count - 1)).length = min (count - 1) pieces.length :=
    List.length_take
  by_cases hrest : rest = []
  · rw [hrest, lastItem_true_nil, List.append_nil]
    exact {
      length_le := by omega
      ne_nil := fun item hitem => hpieces item (List.mem_of_mem_take hitem)
      take_eq := by rw [← hlength, List.take_length]
      rest := fun h => absurd h (by omega)
      count_eq := fun h => absurd hrest (hleft (by omega)) }
  · rw [lastItem_true hrest]
    exact {
      length_le := by
        rw [List.length_append, List.length_singleton]
        omega
      ne_nil := List.forall_mem_append.2
        ⟨fun item hitem => hpieces item (List.mem_of_mem_take hitem),
          List.forall_mem_singleton.2 hrest⟩
      take_eq := by rw [← hlength, List.take_left]
      rest := fun _ => ⟨rest, rfl, hstands hrest⟩
      count_eq := fun h => by
        rw [List.length_append, List.length_singleton]
        omega }

/-- An item that is not empty has no separator in it. -/
theorem free_of_mem_splitUnits_true (h : item ∈ splitUnits isSeparator true none us) :
    item ≠ [] ∧ ∀ u ∈ item, isSeparator u = false := by
  rw [splitUnits_true_none] at h
  obtain ⟨hmem, hne⟩ := List.mem_filter.1 h
  exact ⟨by simpa using hne, (splits_splitUnits isSeparator none us).free nofun item hmem⟩

/-- A limit that is not reached makes no difference. Without empty items it is reached already if
there are as many items: what stands behind them is not looked at. -/
theorem splitUnits_some_of_length_le {removeEmpty : Bool}
    (hle : (splitUnits isSeparator removeEmpty none us).length ≤ n)
    (hlt : removeEmpty = true → (splitUnits isSeparator removeEmpty none us).length < n) :
    splitUnits isSeparator removeEmpty (some n) us =
      splitUnits isSeparator removeEmpty none us := by
  induction us using cut_induction isSeparator generalizing n with
  | free us hfree => rw [splitUnits_of_free hfree, splitUnits_of_free hfree]
  | cut item sep us hitem hsep ih =>
    have hfirst : splitUnits isSeparator removeEmpty none (item ++ sep :: us) = _ :=
      splitUnits_first (by simp) hitem hsep us
    by_cases hempty : removeEmpty = true ∧ item = []
    · rw [if_pos hempty] at hfirst
      rw [hfirst] at hle hlt ⊢
      have hn : some n ≠ some 0 := by
        rintro ⟨⟩
        exact absurd (hlt hempty.1) (Nat.not_lt_zero _)
      rw [splitUnits_first hn hitem hsep, if_pos hempty, ih hle hlt]
    · rw [if_neg hempty] at hfirst
      rw [hfirst, List.length_cons] at hle hlt
      obtain ⟨k, rfl⟩ := Nat.exists_eq_add_of_le' (Nat.succ_le_of_lt (Nat.lt_of_lt_of_le
        (Nat.succ_pos _) hle))
      rw [hfirst, splitUnits_first (by simp) hitem hsep, if_neg hempty]
      refine congrArg (item :: ·) (ih (Nat.le_of_succ_le_succ hle) fun h => ?_)
      exact Nat.lt_of_succ_lt_succ (hlt h)

/-! ## Texts -/

/-- The separators of a split, where nothing is wrong with them and with the units of the text. -/
def Text.validSeparators (t : Text) (separators : Separators) : Except Failure (List Nat) := do
  let seps ← separators.units t.width
  let _ ← (effectiveSeparators seps).mapM readNumber
  let _ ← t.unitString
  return seps

namespace Value

variable {t : Text} {separators : Separators} {seps : List Nat} {removeEmpty : Bool}

theorem units_of_validSeparators (h : t.validSeparators separators = .ok seps) :
    separators.units t.width = .ok seps := by
  obtain ⟨seps', hseps, h⟩ := bind_eq_ok.1 h
  obtain ⟨_, -, h⟩ := bind_eq_ok.1 h
  obtain ⟨_, -, h⟩ := bind_eq_ok.1 h
  rw [hseps, pure_eq_ok.1 h]

/-- The items of a text, as values. -/
def splitItems (t : Text) (seps : List Nat) (removeEmpty : Bool) (limit : Option Nat) :
    List Value :=
  ((splitUnits (effectiveSeparators seps).contains removeEmpty limit t.units).map
    t.container.pack).map .text

/-- Whether a text can be split does not depend on the count, nor on what is done with empty
items. -/
theorem split_eq_map {count : Option Int} (hcount : ∀ n ∈ count, 2 ≤ n) (removeEmpty : Bool) :
    split (.text t) separators count removeEmpty = (t.validSeparators separators).map
      fun seps => splitItems t seps removeEmpty ((count.map Int.toNat).map (· - 1)) := by
  have hcount' := two_le_toNat_of_mem hcount
  have hzero : count.map Int.toNat ≠ some 0 := fun h => absurd (hcount' 0 h) (by decide)
  have hone : count.map Int.toNat ≠ some 1 := fun h => absurd (hcount' 1 h) (by decide)
  rw [split_of_two_le hcount, Text.validSeparators]
  cases separators.units t.width with
  | error failure => rfl
  | ok seps =>
    change (t.split seps (count.map Int.toNat) removeEmpty >>= _) = _
    rw [Text.split, if_neg hzero, if_neg hone]
    change (((effectiveSeparators seps).mapM Text.readNumber >>= _) >>= _) =
      Except.map _ ((effectiveSeparators seps).mapM Text.readNumber >>= _)
    cases (effectiveSeparators seps).mapM Text.readNumber with
    | error failure => rfl
    | ok =>
      cases t.unitString with
      | error failure => rfl
      | ok => rfl

/-- The items of a text hold units of it, and are as long as these are. -/
theorem exists_splitItems (t : Text) (seps : List Nat) (removeEmpty : Bool) (limit : Option Nat) :
    ∃ items : List Text, splitItems t seps removeEmpty limit = items.map .text ∧
      (∀ item ∈ items, item.container = t.container) ∧ items.map Text.units =
        splitUnits (effectiveSeparators seps).contains removeEmpty limit t.units := by
  refine ⟨_, rfl, fun item hitem => ?_, Text.units_pack_of_mem (mem_of_mem_splitUnits _ _ _ _)⟩
  obtain ⟨us, -, rfl⟩ := List.mem_map.1 hitem
  rfl

theorem size_text (t : Text) : size (.text t) = .ok t.units.length := rfl

theorem filter_splitItems (t : Text) (seps : List Nat) :
    (splitItems t seps false .none).filter (fun v => v.size ≠ .ok 0) =
      splitItems t seps true .none := by
  have hsize : ∀ us : List Nat, (decide (size (.text (t.container.pack us)) ≠ .ok 0)) =
      decide (us ≠ []) := by
    intro us
    have hlength : (t.container.pack us).units.length = us.length := List.length_map _
    rw [size_text, hlength, decide_eq_decide]
    exact not_congr ⟨fun h => List.length_eq_zero_iff.1 (Except.ok.inj h), fun h => by rw [h]; rfl⟩
  rw [splitItems, splitItems, splitUnits_true_none, List.map_map, List.filter_map, List.map_map]
  congr 1
  exact List.filter_congr fun us _ => hsize us

/-- **Leaving empty items out is filtering, as far as a limit lets items be split off.** Without a
count, a split without empty items has the items of the full split that are not empty, in their
order. With a count of at least two, it fails as it does without one; else it has at most so many
items, of which none is empty. All but one of the items that are allowed are the first of those
without a count. One more, if there is one, is what stands behind the separator that ended the item
before it. -/
theorem split_filters (t : Text) (separators : Separators) :
    split (.text t) separators .none true =
      (split (.text t) separators .none false).map (List.filter fun v => v.size ≠ .ok 0) ∧
    ∀ count : Int, 2 ≤ count →
      (∀ failure, split (.text t) separators (some count) true = .error failure ↔
        split (.text t) separators .none true = .error failure) ∧
      ∀ pieces, split (.text t) separators .none true = .ok pieces →
        ∃ (seps : List Nat) (ps items : List Text), separators.units t.width = .ok seps ∧
          pieces = ps.map .text ∧
          split (.text t) separators (some count) true = .ok (items.map .text) ∧
          (∀ item ∈ ps ++ items, item.container = t.container) ∧
          LimitsTo (effectiveSeparators seps).contains count.toNat t.units (ps.map Text.units)
            (items.map Text.units) := by
  have hnone : ∀ removeEmpty, split (.text t) separators .none removeEmpty =
      (t.validSeparators separators).map fun seps => splitItems t seps removeEmpty .none :=
    split_eq_map (by simp)
  refine ⟨?_, fun count hcount => ?_⟩
  · rw [hnone, hnone]
    cases t.validSeparators separators with
    | error failure => rfl
    | ok seps => exact congrArg Except.ok (filter_splitItems t seps).symm
  · have hsome : split (.text t) separators (some count) true =
        (t.validSeparators separators).map
          fun seps => splitItems t seps true (some (count.toNat - 1)) :=
      split_eq_map (by rintro _ ⟨⟩; exact hcount) true
    rw [hnone, hsome]
    cases hvalid : t.validSeparators separators with
    | error failure =>
      exact ⟨fun _ => Iff.rfl, nofun⟩
    | ok seps =>
      refine ⟨fun failure => ⟨nofun, nofun⟩, fun pieces hpieces => ?_⟩
      obtain rfl := Except.ok.inj hpieces
      obtain ⟨ps, hps, hcontainer, hunits⟩ := exists_splitItems t seps true .none
      obtain ⟨items, hitems, hcontainer', hunits'⟩ :=
        exists_splitItems t seps true (some (count.toNat - 1))
      refine ⟨seps, ps, items, units_of_validSeparators hvalid, hps, congrArg Except.ok hitems,
        List.forall_mem_append.2 ⟨hcontainer, hcontainer'⟩, ?_⟩
      rw [hunits, hunits']
      exact limitsTo_splitUnits (by omega) t.units

/-- Behind the first of two items that are not empty there are separators left. -/
theorem split_filters_comma :
    ∃ pieces items : List Text,
      split (.text (Container.units16.pack [44, 97, 44, 44, 98, 44])) (.list [.integer 44]) .none
        true = .ok (pieces.map .text) ∧
      split (.text (Container.units16.pack [44, 97, 44, 44, 98, 44])) (.list [.integer 44])
        (some 2) true = .ok (items.map .text) ∧
      LimitsTo [44].contains 2 [44, 97, 44, 44, 98, 44] (pieces.map Text.units)
        (items.map Text.units) := by
  have hpieces : split (.text (Container.units16.pack [44, 97, 44, 44, 98, 44]))
      (.list [.integer 44]) .none true =
      .ok [.text (Container.units16.pack [97]), .text (Container.units16.pack [98])] := by
    decide +kernel
  obtain ⟨seps, ps, items, hseps, heq, hitems, -, hlimits⟩ :=
    ((split_filters (Container.units16.pack [44, 97, 44, 44, 98, 44]) (.list [.integer 44])).2 2
      (by decide)).2 _ hpieces
  have hvalid : (Separators.list [.integer 44]).units .wide16 = .ok [44] := by decide +kernel
  obtain rfl := Except.ok.inj (hseps.symm.trans hvalid)
  exact ⟨ps, items, hpieces.trans (congrArg Except.ok heq), hitems, hlimits⟩

/-! ## Counts that are not needed -/

theorem length_splitItems (t : Text) (seps : List Nat) (removeEmpty : Bool) (limit : Option Nat) :
    (splitItems t seps removeEmpty limit).length =
      (splitUnits (effectiveSeparators seps).contains removeEmpty limit t.units).length := by
  rw [splitItems, List.length_map, List.length_map]

/-- A count that leaves room is not needed. -/
theorem split_of_length_lt (hvalid : t.validSeparators separators = .ok seps) {count : Int}
    (hlt : (splitItems t seps removeEmpty .none).length < count)
    (hspare : removeEmpty = true → (splitItems t seps removeEmpty .none).length + 1 < count) :
    split (.text t) separators (some count) removeEmpty =
      .ok (splitItems t seps removeEmpty .none) := by
  rw [length_splitItems] at hlt hspare
  have htwo : 2 ≤ count := by
    cases removeEmpty with
    | true =>
      have hspare := hspare rfl
      omega
    | false =>
      -- there is always an item if empty items are kept
      have hne := (splits_splitUnits (effectiveSeparators seps).contains .none t.units).ne_nil
      have hpos := List.length_pos_iff.2 hne
      omega
  have hsome : split (.text t) separators (some count) removeEmpty =
      (t.validSeparators separators).map
        fun seps => splitItems t seps removeEmpty (some (count.toNat - 1)) :=
    split_eq_map (by rintro _ ⟨⟩; exact htwo) removeEmpty
  rw [hsome, hvalid]
  refine congrArg Except.ok ?_
  change splitItems t seps removeEmpty (some (count.toNat - 1)) = _
  rw [splitItems, splitItems, splitUnits_some_of_length_le (by omega)]
  intro h
  have hspare := hspare h
  omega

/-- A count with room for just one more item shows what the items leave. -/
theorem split_length_add_one (hvalid : t.validSeparators separators = .ok seps)
    (hne : splitItems t seps true .none ≠ []) :
    split (.text t) separators (some ((splitItems t seps true .none).length + 1)) true =
      .ok (splitItems t seps true .none ++
        ((lastItem true (t.units.rtakeWhile (effectiveSeparators seps).contains).tail).map
          t.container.pack).map .text) := by
  have hpos := List.length_pos_iff.2 hne
  have hne' : splitUnits (effectiveSeparators seps).contains true .none t.units ≠ [] := by
    intro h
    rw [splitItems, h] at hne
    exact hne rfl
  rw [split_eq_map (by rintro _ ⟨⟩; omega), hvalid]
  refine congrArg Except.ok ?_
  change splitItems t seps true (some ((((splitItems t seps true .none).length : Int) + 1).toNat -
    1)) = _
  have hlimit : (((splitItems t seps true .none).length : Int) + 1).toNat - 1 =
      (splitItems t seps true .none).length := by
    omega
  rw [hlimit, length_splitItems, splitItems, splitItems, splitUnits_true_some, List.take_length,
    iterate_length_eq hne', List.map_append, List.map_append]

/-- **A count with room for one more item has no effect.** With all items, a count that is larger
than their number is not needed. Without empty items it is not needed if it is larger by two. If it
is larger by one, it is not needed unless the text ends in two separators: then what stands behind
the first of these, which is left unsplit, is one more item. A text that has only empty items is
then its only item itself. The items of a split without a count are not empty if empty items are
left out, and have no separators. -/
theorem split_spare {items : List Value}
    (hitems : split (.text t) separators .none removeEmpty = .ok items) :
    ∃ seps, separators.units t.width = .ok seps ∧
      (∀ count : Int, items.length < count → (removeEmpty = true → items.length + 1 < count) →
        split (.text t) separators (some count) removeEmpty = .ok items) ∧
      (removeEmpty = true →
        (∀ item ∈ items, ∃ part : Text, item = .text part ∧ part.units ≠ [] ∧
          ∀ u ∈ part.units, u ∉ effectiveSeparators seps) ∧
        (items = [] → split (.text t) separators (some 1) true = .ok [.text t]) ∧
        (items ≠ [] →
          ((t.units.rtakeWhile (effectiveSeparators seps).contains).length ≤ 1 →
            split (.text t) separators (some (items.length + 1)) true = .ok items) ∧
          (1 < (t.units.rtakeWhile (effectiveSeparators seps).contains).length →
            split (.text t) separators (some (items.length + 1)) true =
              .ok (items ++ [.text (t.container.pack
                (t.units.rtakeWhile (effectiveSeparators seps).contains).tail)])))) := by
  rw [split_eq_map (by simp)] at hitems
  cases hvalid : t.validSeparators separators with
  | error failure =>
    rw [hvalid] at hitems
    cases hitems
  | ok seps =>
    rw [hvalid] at hitems
    obtain rfl : splitItems t seps removeEmpty .none = items := Except.ok.inj hitems
    refine ⟨seps, units_of_validSeparators hvalid, fun count => split_of_length_lt hvalid, ?_⟩
    rintro rfl
    refine ⟨fun item hitem => ?_, fun _ => rfl, fun hne => ?_⟩
    · obtain ⟨part, hpart, rfl⟩ := List.mem_map.1 hitem
      obtain ⟨us, hus, rfl⟩ := List.mem_map.1 hpart
      obtain ⟨hempty, hfree⟩ := free_of_mem_splitUnits_true hus
      have hunits : (t.container.pack us).units = us := Container.units_pack fun u hu =>
        t.units_lt u (mem_of_mem_splitUnits _ _ _ _ us hus u hu)
      refine ⟨_, rfl, by rwa [hunits], fun u hu hsep => ?_⟩
      rw [hunits] at hu
      exact Bool.false_ne_true ((hfree u hu).symm.trans (List.contains_iff_mem.2 hsep))
    · rw [split_length_add_one hvalid hne]
      have hlength := List.length_tail
        (l := t.units.rtakeWhile (effectiveSeparators seps).contains)
      refine ⟨fun hle => ?_, fun hlt => ?_⟩
      · rw [List.length_eq_zero_iff.1 (by omega : (t.units.rtakeWhile
          (effectiveSeparators seps).contains).tail.length = 0), lastItem_true_nil]
        simp
      · rw [lastItem_true (List.ne_nil_of_length_pos (by omega))]
        rfl

/-- With a count of three for the only item, the separators at the end are left out. -/
theorem split_spare_commas :
    split (.ofChars (Chars.ofString "a,,")) (.list [.ofChars (Chars.ofString ",")]) .none true =
      .ok [.ofChars (Chars.ofString "a")] ∧
    split (.ofChars (Chars.ofString "a,,")) (.list [.ofChars (Chars.ofString ",")]) (some 3) true =
      .ok [.ofChars (Chars.ofString "a")] := by
  have hitems : split (.ofChars (Chars.ofString "a,,")) (.list [.ofChars (Chars.ofString ",")])
      .none true = .ok [.ofChars (Chars.ofString "a")] := by
    decide +kernel
  obtain ⟨seps, -, hspare, -⟩ := split_spare hitems
  exact ⟨hitems, hspare 3 (by decide) fun _ => by decide⟩

/-- A count that is larger than the number of items can have an effect: what is left of the text is
one more item. -/
theorem not_split_spare : ¬∀ (t : Text) (separators : Separators) (removeEmpty : Bool)
    (items : List Value) (count : Int),
    split (.text t) separators .none removeEmpty = .ok items → items.length < count →
      split (.text t) separators (some count) removeEmpty = .ok items := by
  intro h
  have heffect := h (.ofString "a,,") (.list [.ofChars (Chars.ofString ",")]) true
    [.ofChars (Chars.ofString "a")] 2 (by decide +kernel) (by decide)
  have hrest : split (.text (.ofString "a,,")) (.list [.ofChars (Chars.ofString ",")]) (some 2)
      true = .ok [.ofChars (Chars.ofString "a"), .ofChars (Chars.ofString ",")] := by
    decide +kernel
  cases heffect.symm.trans hrest

end Value

end UnitText
