import UnitText.Proofs.Encoding.RoundTrip

/-!
# Percent signs written twice

A text in which each unit `0x25` is written twice is decoded to the characters of the text in which
each percent sign is written twice. In every encoding the unit stands for that character and for
nothing else, so it belongs to no longer sequence, and a damaged sequence stays damaged if the unit
behind it is written once more.

## Main definitions

- `doubling` — a sequence in which one element is written twice wherever it occurs
- `Text.escaped` — the template that writes a text literally

## Main statements

- `Utf8.decode_doubling`, `Utf16.decode_doubling` — doubled units are doubled characters
- `Text.decode_escaped` — the same for texts in any container
-/

namespace UnitText

/-- A sequence in which each occurrence of an element is written twice. -/
def doubling {α : Type} [DecidableEq α] (a : α) (xs : List α) : List α :=
  xs.flatMap fun x => if x = a then [x, x] else [x]

section Doubling

variable {α β : Type} [DecidableEq α] [DecidableEq β] {a x : α} {xs ys : List α}

@[simp] theorem doubling_nil : doubling a [] = [] := rfl

@[simp] theorem doubling_cons_self : doubling a (a :: xs) = a :: a :: doubling a xs := by
  simp [doubling]

theorem doubling_cons_of_ne (h : x ≠ a) : doubling a (x :: xs) = x :: doubling a xs := by
  simp [doubling, h]

@[simp] theorem doubling_append : doubling a (xs ++ ys) = doubling a xs ++ doubling a ys := by
  simp [doubling]

@[simp] theorem mem_doubling : x ∈ doubling a xs ↔ x ∈ xs := by
  simp only [doubling, List.mem_flatMap]
  constructor
  · rintro ⟨y, hy, hx⟩
    split at hx <;> simp_all
  · intro hx
    exact ⟨x, hx, by split <;> simp⟩

theorem doubling_of_not_mem (h : a ∉ xs) : doubling a xs = xs := by
  induction xs with
  | nil => rfl
  | cons x xs ih =>
    rw [List.mem_cons, not_or] at h
    rw [doubling_cons_of_ne (Ne.symm h.1), ih h.2]

/-- The beginning of a doubled sequence is that of the sequence, up to the first element that was
doubled. -/
theorem take_doubling {n : Nat} (h : a ∉ (doubling a xs).take n) :
    (doubling a xs).take n = xs.take n := by
  induction xs generalizing n with
  | nil => rfl
  | cons x xs ih =>
    cases n with
    | zero => rfl
    | succ n =>
      by_cases hx : x = a
      · subst hx
        simp at h
      · rw [doubling_cons_of_ne hx, List.take_succ_cons] at h ⊢
        rw [ih fun hmem => h (List.mem_cons_of_mem _ hmem), List.take_succ_cons]

/-- The head of a doubled sequence is the head of the sequence. -/
theorem head?_doubling : (doubling a xs).head? = xs.head? := by
  cases xs with
  | nil => rfl
  | cons x xs =>
    by_cases hx : x = a
    · subst hx
      simp
    · rw [doubling_cons_of_ne hx]
      rfl

/-- Doubling an element that nothing else is mapped to. -/
theorem map_doubling {f : α → β} (h : ∀ x ∈ xs, f x = f a → x = a) :
    (doubling a xs).map f = doubling (f a) (xs.map f) := by
  induction xs with
  | nil => rfl
  | cons x xs ih =>
    rw [List.forall_mem_cons] at h
    by_cases hx : x = a
    · subst hx
      simp [ih h.2]
    · rw [doubling_cons_of_ne hx, List.map_cons, List.map_cons,
        doubling_cons_of_ne fun hf => hx (h.1 hf), ih h.2]

end Doubling

/-- The unit of the percent sign stands for no other character. -/
theorem CodePoint.ofNat_eq_percent {u : Nat} (hu : u < 0x110000) (h : ofNat u = ofChar '%') :
    u = 0x25 := by
  rw [← val_ofNat hu, h]
  rfl

namespace Utf8

/-- No byte of another character is the byte of the percent sign. -/
theorem percent_not_mem_bytesOf {c : CodePoint} (hc : ¬c.IsSurrogate)
    (h : c ≠ CodePoint.ofChar '%') : 0x25 ∉ bytesOf c := by
  have hval : c.val ≠ 0x25 := fun hval => h (CodePoint.ext hval)
  rw [bytesOf_of_not_isSurrogate hc]
  split
  · simpa using hval.symm
  split
  · simp only [List.mem_cons, List.not_mem_nil, or_false]
    omega
  split
  · simp only [List.mem_cons, List.not_mem_nil, or_false]
    omega
  · simp only [List.mem_cons, List.not_mem_nil, or_false]
    omega

/-- A byte that begins no character begins none if the bytes behind it are doubled. -/
theorem lead?_doubling {a : Nat} {rest : List Nat} (ha : a ≠ 0x25) (h : lead? a rest = none) :
    lead? a (doubling 0x25 rest) = none := by
  rw [Option.eq_none_iff_forall_ne_some]
  rintro ⟨c, used⟩ hlead
  obtain ⟨hbytes, hc⟩ := bytesOf_of_lead hlead
  have hne : c ≠ CodePoint.ofChar '%' := by
    rintro rfl
    exact ha (List.cons.inj hbytes).1.symm
  -- the bytes of the character lie before the first one that was doubled
  have htake : (doubling 0x25 rest).take used = rest.take used := take_doubling fun hmem =>
    percent_not_mem_bytesOf hc hne (hbytes ▸ List.mem_cons_of_mem _ hmem)
  obtain ⟨b, tail, hbytes', hlead'⟩ := lead_bytesOf hc (rest.drop used)
  rw [hbytes, htake] at hbytes'
  obtain ⟨rfl, rfl⟩ := List.cons.inj hbytes'
  rw [List.take_append_drop, h] at hlead'
  cases hlead'

theorem decode_percent (bs : List Nat) :
    decode (0x25 :: bs) = CodePoint.ofChar '%' :: decode bs := by
  have hlead : lead? 0x25 bs = some (CodePoint.ofChar '%', 0) := rfl
  exact decode_cons_of_lead hlead

theorem escape_ne_percent {b : Nat} (hb : b < 0x100) : escape b ≠ CodePoint.ofChar '%' := by
  have hval : (escape b).val = 0xDC00 + b := CodePoint.val_ofNat (by omega)
  intro h
  rw [h, CodePoint.val_ofChar] at hval
  have hpercent : '%'.toNat = 0x25 := rfl
  omega

theorem decode_doubling {bs : List Nat} (hbs : ∀ b ∈ bs, b < 0x100) :
    decode (doubling 0x25 bs) = doubling (CodePoint.ofChar '%') (decode bs) := by
  -- on the number of bytes, because a character takes several of them at once
  induction hn : bs.length using Nat.strongRecOn generalizing bs with
  | ind n ih =>
    cases bs with
    | nil => rfl
    | cons a rest =>
      simp only [List.length_cons] at hn
      have hrest := (List.forall_mem_cons.1 hbs).2
      by_cases ha : a = 0x25
      · subst ha
        rw [doubling_cons_self, decode_percent, decode_percent, decode_percent,
          doubling_cons_self, ih rest.length (by omega) hrest rfl]
      cases hlead : lead? a rest with
      | none =>
        have hne := escape_ne_percent (hbs a List.mem_cons_self)
        rw [doubling_cons_of_ne ha, decode_cons_of_not_lead (lead?_doubling ha hlead),
          decode_cons_of_not_lead hlead, doubling_cons_of_ne hne,
          ih rest.length (by omega) hrest rfl]
      | some found =>
        obtain ⟨c, used⟩ := found
        obtain ⟨hbytes, hc⟩ := bytesOf_of_lead hlead
        have hne : c ≠ CodePoint.ofChar '%' := by
          rintro rfl
          exact ha (List.cons.inj hbytes).1.symm
        have hsplit : a :: rest = bytesOf c ++ rest.drop used := by
          rw [hbytes, List.cons_append, List.take_append_drop]
        have hdrop : ∀ b ∈ rest.drop used, b < 0x100 :=
          fun b hb => hrest b (List.mem_of_mem_drop hb)
        rw [hsplit, doubling_append, doubling_of_not_mem (percent_not_mem_bytesOf hc hne),
          decode_bytesOf_append hc, decode_bytesOf_append hc, doubling_cons_of_ne hne,
          ih (rest.drop used).length (by rw [List.length_drop]; omega) hdrop rfl]

end Utf8

namespace Utf16

/-- A unit by itself is read from doubled units as it is read from the units. -/
private theorem decode_doubling_cons {u : Nat} {us : List Nat} (hu : u < 0x10000)
    (h : ∀ v ∈ us.head?, ¬(IsHigh u ∧ IsLow v))
    (ih : decode (doubling 0x25 us) = doubling (CodePoint.ofChar '%') (decode us)) :
    decode (doubling 0x25 (u :: us)) = doubling (CodePoint.ofChar '%') (decode (u :: us)) := by
  rw [decode_cons_of_not_pair h]
  by_cases hpercent : u = 0x25
  · subst hpercent
    have hnot : ∀ vs : List Nat, ∀ v ∈ vs.head?, ¬(IsHigh 0x25 ∧ IsLow v) := by
      rintro vs v _ ⟨⟨hhigh, -⟩, -⟩
      omega
    rw [doubling_cons_self, decode_cons_of_not_pair (hnot _), decode_cons_of_not_pair (hnot _), ih]
    exact doubling_cons_self.symm
  · have hne : CodePoint.ofNat u ≠ CodePoint.ofChar '%' :=
      fun h => hpercent (CodePoint.ofNat_eq_percent (by omega) h)
    rw [doubling_cons_of_ne hpercent, doubling_cons_of_ne hne,
      decode_cons_of_not_pair (by rwa [head?_doubling]), ih]

theorem decode_doubling {us : List Nat} (hus : ∀ u ∈ us, u < 0x10000) :
    decode (doubling 0x25 us) = doubling (CodePoint.ofChar '%') (decode us) := by
  induction us using decode.induct with
  | case1 => rfl
  | case2 u =>
    refine decode_doubling_cons (hus u List.mem_cons_self) ?_ rfl
    rintro _ ⟨⟩
  | case3 u v rest hpair ih =>
    simp only [List.forall_mem_cons] at hus
    obtain ⟨⟨hu, hu'⟩, hv, hv'⟩ := hpair
    have hval : (ofPair u v).val = 0x10000 + (u - 0xD800) * 0x400 + (v - 0xDC00) :=
      CodePoint.val_ofNat (by omega)
    have hne : ofPair u v ≠ CodePoint.ofChar '%' := by
      intro h
      rw [h, CodePoint.val_ofChar] at hval
      have hpercent : '%'.toNat = 0x25 := rfl
      omega
    rw [doubling_cons_of_ne (by omega), doubling_cons_of_ne (by omega),
      decode_cons_of_pair ⟨hu, hu'⟩ ⟨hv, hv'⟩, decode_cons_of_pair ⟨hu, hu'⟩ ⟨hv, hv'⟩,
      doubling_cons_of_ne hne, ih hus.2.2]
  | case4 u v rest hpair ih =>
    rw [List.forall_mem_cons] at hus
    refine decode_doubling_cons hus.1 ?_ (ih hus.2)
    rintro _ ⟨⟩
    exact hpair

end Utf16

namespace Text

/-- The template that writes a text: the text with each percent sign written twice. -/
def escaped (t : Text) : Text where
  container := t.container
  units := doubling 0x25 t.units
  units_lt := fun u hu => t.units_lt u (mem_doubling.1 hu)

/-- Units that are code points, doubled, are doubled characters. -/
theorem map_ofNat_doubling {us : List Nat} (hus : ∀ u ∈ us, u < 0x110000) :
    (doubling 0x25 us).map CodePoint.ofNat =
      doubling (CodePoint.ofChar '%') (us.map CodePoint.ofNat) :=
  map_doubling fun u hu h => CodePoint.ofNat_eq_percent (hus u hu) h

/-- The template that writes a text is decoded to the characters of the text, with each percent
sign among them written twice. -/
theorem decode_escaped {t : Text} (h : t.container = .units32 → ∀ u ∈ t.units, u < 0x110000)
    {cs : Chars} (hcs : t.decode = .ok cs) :
    t.escaped.decode = .ok (doubling (CodePoint.ofChar '%') cs) := by
  obtain ⟨k, us, hlt⟩ := t
  cases k with
  | chars =>
    obtain rfl := Except.ok.inj hcs
    exact congrArg Except.ok (map_ofNat_doubling hlt)
  | bytes | byteBuffer | units8 =>
    obtain rfl := Except.ok.inj hcs
    exact congrArg Except.ok (Utf8.decode_doubling hlt)
  | units16 =>
    obtain rfl := Except.ok.inj hcs
    exact congrArg Except.ok (Utf16.decode_doubling hlt)
  | units32 =>
    have hus := h rfl
    obtain rfl := Except.ok.inj ((mapM_readUnit_eq_ok hus).symm.trans hcs)
    have hdoubled : ∀ u ∈ doubling 0x25 us, u < 0x110000 := fun u hu => hus u (mem_doubling.1 hu)
    exact (mapM_readUnit_eq_ok hdoubled).trans (congrArg Except.ok (map_ofNat_doubling hus))

end Text

end UnitText
