import UnitText.Proofs.Encoding.AsciiUnits
import UnitText.Text.Split

/-!
# The items of a split, one after another

What a sequence of units is split into is known from its first separator: without one, the sequence
is the last item; with one, the units before it are an item, unless there are none and empty items
are left out, and the units behind it are split further.

## Main statements

- `splitUnits_of_free`, `splitUnits_zero` — the last item
- `splitUnits_first` — the item before the first separator
- `mem_of_mem_splitUnits` — nothing is in the items but what is in the sequence
-/

namespace UnitText

variable {isSeparator : Nat → Bool} {removeEmpty : Bool} {limit : Option Nat} {us item : List Nat}
  {sep : Nat}

theorem mem_lastItem_iff :
    item ∈ lastItem removeEmpty us ↔ item = us ∧ ¬(removeEmpty = true ∧ us = []) := by
  rw [lastItem]
  split
  · next h => simp [h]
  · next h => simp [h]

theorem splitFrom_of_free (seen : List Nat) (h : ∀ u ∈ us, isSeparator u = false) :
    splitFrom isSeparator removeEmpty limit seen us =
      lastItem removeEmpty (seen.reverse ++ us) := by
  induction us generalizing seen with
  | nil => rw [splitFrom, List.append_nil]
  | cons u us ih =>
    rw [List.forall_mem_cons] at h
    rw [splitFrom]
    split
    · rfl
    · rw [h.1, if_neg Bool.false_ne_true, ih _ h.2, List.reverse_cons, ← List.append_cons]

/-- Without separators there is only the last item. -/
theorem splitUnits_of_free (h : ∀ u ∈ us, isSeparator u = false) :
    splitUnits isSeparator removeEmpty limit us = lastItem removeEmpty us :=
  splitFrom_of_free [] h

/-- A limit of zero leaves everything to the last item. -/
theorem splitUnits_zero (us : List Nat) :
    splitUnits isSeparator removeEmpty (some 0) us = lastItem removeEmpty us := by
  cases us with
  | nil => rfl
  | cons u us => rw [splitUnits, splitFrom, if_pos rfl]; rfl

theorem splitFrom_first (seen : List Nat) (hlimit : limit ≠ some 0)
    (hitem : ∀ u ∈ item, isSeparator u = false) (hsep : isSeparator sep = true) (us : List Nat) :
    splitFrom isSeparator removeEmpty limit seen (item ++ sep :: us) =
      if removeEmpty = true ∧ seen.reverse ++ item = [] then
        splitUnits isSeparator removeEmpty limit us
      else
        (seen.reverse ++ item) :: splitUnits isSeparator removeEmpty (limit.map (· - 1)) us := by
  induction item generalizing seen with
  | nil =>
    rw [List.nil_append, splitFrom, if_neg hlimit, if_pos hsep, List.append_nil]
    simp only [List.reverse_eq_nil_iff, splitUnits]
  | cons u item ih =>
    rw [List.forall_mem_cons] at hitem
    rw [List.cons_append, splitFrom, if_neg hlimit, hitem.1, if_neg Bool.false_ne_true,
      ih _ hitem.2, List.reverse_cons, ← List.append_cons]

/-- What stands before the first separator is an item, unless it is empty and left out. -/
theorem splitUnits_first (hlimit : limit ≠ some 0) (hitem : ∀ u ∈ item, isSeparator u = false)
    (hsep : isSeparator sep = true) (us : List Nat) :
    splitUnits isSeparator removeEmpty limit (item ++ sep :: us) =
      if removeEmpty = true ∧ item = [] then
        splitUnits isSeparator removeEmpty limit us
      else
        item :: splitUnits isSeparator removeEmpty (limit.map (· - 1)) us :=
  splitFrom_first [] hlimit hitem hsep us

/-- Nothing is in the items but what is in the sequence. -/
theorem mem_of_mem_splitUnits (isSeparator : Nat → Bool) (removeEmpty : Bool) (limit : Option Nat)
    (us : List Nat) :
    ∀ item ∈ splitUnits isSeparator removeEmpty limit us, ∀ u ∈ item, u ∈ us := by
  have hlast : ∀ vs, ∀ item ∈ lastItem removeEmpty vs, ∀ u ∈ item, u ∈ vs := by
    intro vs item hitem u hu
    obtain ⟨rfl, -⟩ := mem_lastItem_iff.1 hitem
    exact hu
  induction us using cut_induction isSeparator generalizing limit with
  | free us hfree =>
    rw [splitUnits_of_free hfree]
    exact hlast us
  | cut item sep us hitem hsep ih =>
    by_cases hlimit : limit = some 0
    · subst hlimit
      rw [splitUnits_zero]
      exact hlast _
    · have hrest : ∀ limit, ∀ next ∈ splitUnits isSeparator removeEmpty limit us, ∀ u ∈ next,
          u ∈ item ++ sep :: us := fun limit next hnext u hu =>
        List.mem_append_right _ (List.mem_cons_of_mem _ (ih limit next hnext u hu))
      rw [splitUnits_first hlimit hitem hsep]
      split
      · exact hrest _
      · exact List.forall_mem_cons.2 ⟨fun u hu => List.mem_append_left _ hu, hrest _⟩

end UnitText
