import UnitText.Proofs.Encoding.Ascii
import UnitText.Proofs.Encoding.RoundTrip

/-!
# Units of ASCII

In every encoding, a unit below `0x80` stands for the character of that number, and for nothing
else. It is no part of a longer sequence, and a sequence that it breaks off is as damaged as one
that ends there. So units can be cut at such a unit before they are decoded, and a map that changes
ASCII only can be applied to units or to characters.

## Main definitions

- `Width.decode` — the characters of a sequence of units
- `MapsAscii` — maps of numbers that change ASCII only

## Main statements

- `Width.decode_append_cons` — units are cut at a unit of ASCII and decoded piece by piece
- `Width.ofNat_mem_decode_iff` — a unit of ASCII is a character of ASCII
- `Width.decode_map`, `Width.units_map` — a map of ASCII before and after the encoding
-/

namespace UnitText

namespace Utf8

theorem not_isContinuation {u : Nat} (hu : u < 0x80) : ¬IsContinuation u := by
  rintro ⟨h, -⟩
  omega

/-- A character goes no further than to a byte of ASCII. -/
theorem lead?_append_cons {u : Nat} (hu : u < 0x80) (a : Nat) (us vs : List Nat) :
    lead? a (us ++ u :: vs) = lead? a us := by
  have hnot := not_isContinuation hu
  simp only [lead?]
  split
  · rfl
  split
  · rfl
  split
  · cases us with
    | nil => simp [pair?, hnot]
    | cons => rfl
  split
  · rcases us with _ | ⟨b, _ | ⟨c, us⟩⟩
    · cases vs with
      | nil => rfl
      | cons => simp [triple?, hnot]
    · simp [triple?, hnot]
    · rfl
  · rcases us with _ | ⟨b, _ | ⟨c, _ | ⟨d, us⟩⟩⟩
    · rcases vs with _ | ⟨c, _ | ⟨d, vs⟩⟩
      · rfl
      · rfl
      · simp [quadruple?, hnot]
    · cases vs with
      | nil => rfl
      | cons => simp [quadruple?, hnot]
    · simp [quadruple?, hnot]
    · rfl

theorem decode_cons_of_ascii {u : Nat} (hu : u < 0x80) (vs : List Nat) :
    decode (u :: vs) = CodePoint.ofNat u :: decode vs := by
  have hlead : lead? u vs = some (CodePoint.ofNat u, 0) := if_pos hu
  exact decode_cons_of_lead hlead

theorem decode_append_cons {u : Nat} (hu : u < 0x80) (us vs : List Nat) :
    decode (us ++ u :: vs) = decode us ++ CodePoint.ofNat u :: decode vs := by
  -- on the number of bytes, because a character takes several of them at once
  induction hn : us.length using Nat.strongRecOn generalizing us with
  | ind n ih =>
    cases us with
    | nil => exact decode_cons_of_ascii hu vs
    | cons a rest =>
      simp only [List.length_cons] at hn
      cases hlead : lead? a rest with
      | none =>
        have hlead' : lead? a (rest ++ u :: vs) = none := by rw [lead?_append_cons hu, hlead]
        rw [List.cons_append, decode_cons_of_not_lead hlead', decode_cons_of_not_lead hlead,
          ih rest.length (by omega) rest rfl, List.cons_append]
      | some found =>
        obtain ⟨c, used⟩ := found
        obtain ⟨hbytes, hc⟩ := bytesOf_of_lead hlead
        have hsplit : a :: rest = bytesOf c ++ rest.drop used := by
          rw [hbytes, List.cons_append, List.take_append_drop]
        rw [hsplit, List.append_assoc, decode_bytesOf_append hc, decode_bytesOf_append hc,
          ih (rest.drop used).length (by rw [List.length_drop]; omega) _ rfl, List.cons_append]

end Utf8

namespace Utf16

theorem decode_cons_of_ascii {u : Nat} (hu : u < 0x80) (vs : List Nat) :
    decode (u :: vs) = CodePoint.ofNat u :: decode vs := by
  refine decode_cons_of_not_pair fun v _ => ?_
  rintro ⟨⟨h, -⟩, -⟩
  omega

theorem decode_append_cons {u : Nat} (hu : u < 0x80) (us vs : List Nat) :
    decode (us ++ u :: vs) = decode us ++ CodePoint.ofNat u :: decode vs := by
  induction us using decode.induct with
  | case1 => exact decode_cons_of_ascii hu vs
  | case2 x =>
    have hnot : ∀ v ∈ (u :: vs).head?, ¬(IsHigh x ∧ IsLow v) := by
      rintro _ ⟨⟩ ⟨-, h, -⟩
      omega
    rw [List.cons_append, List.nil_append, decode_cons_of_not_pair hnot, decode_cons_of_ascii hu]
    rfl
  | case3 x y rest hpair ih =>
    rw [List.cons_append, List.cons_append, decode_cons_of_pair hpair.1 hpair.2,
      decode_cons_of_pair hpair.1 hpair.2, ih, List.cons_append]
  | case4 x y rest hpair ih =>
    have hnot : ∀ v ∈ (y :: rest ++ u :: vs).head?, ¬(IsHigh x ∧ IsLow v) := by
      rintro _ ⟨⟩
      exact hpair
    rw [List.cons_append, decode_cons_of_not_pair hnot, ih, decode, if_neg hpair, List.cons_append]

end Utf16

/-! ## Characters of units -/

namespace Width

/-- Units that characters are written in are below this number: what a unit can hold, and code
points only. -/
def codeLimit : Width → Nat
  | narrow => 0x100
  | wide16 => 0x10000
  | wide32 => 0x110000

/-- The characters of a sequence of units. -/
def decode : Width → List Nat → Chars
  | narrow, us => Utf8.decode us
  | wide16, us => Utf16.decode us
  | wide32, us => us.map CodePoint.ofNat

variable {w : Width} {u : Nat} {us : List Nat} {c : CodePoint} {cs : Chars}

theorem decode_append_cons (hu : u < 0x80) (us vs : List Nat) :
    w.decode (us ++ u :: vs) = w.decode us ++ CodePoint.ofNat u :: w.decode vs := by
  cases w with
  | narrow => exact Utf8.decode_append_cons hu us vs
  | wide16 => exact Utf16.decode_append_cons hu us vs
  | wide32 => simp [decode]

/-- Units that are decoded and encoded again are the same units. -/
theorem units_decode (hus : ∀ u ∈ us, u < w.codeLimit) : w.units (w.decode us) = us := by
  cases w with
  | narrow => exact Utf8.bytes_decode hus
  | wide16 => exact Utf16.units_decode hus
  | wide32 =>
    rw [units_wide32, decode, List.map_map]
    exact (List.map_congr_left fun u hu => CodePoint.val_ofNat (hus u hu)).trans (List.map_id us)

theorem decode_eq_nil_iff (hus : ∀ u ∈ us, u < w.codeLimit) : w.decode us = [] ↔ us = [] := by
  constructor
  · intro h
    rw [← units_decode hus, h]
    rfl
  · rintro rfl
    cases w <;> rfl

/-- The units of other characters are no units of ASCII. -/
theorem le_of_mem_unitsOf (hc : ¬c.IsAscii) (hu : u ∈ w.unitsOf c) : 0x80 ≤ u := by
  simp only [CodePoint.IsAscii] at hc
  cases w with
  | narrow =>
    simp only [unitsOf, Utf8.bytesOf, if_neg hc] at hu
    split at hu
    · simp only [List.mem_cons, List.not_mem_nil, or_false] at hu
      omega
    split at hu
    · next hesc =>
      obtain ⟨hesc, -⟩ := hesc
      simp only [List.mem_cons, List.not_mem_nil, or_false] at hu
      omega
    split at hu
    · simp only [List.mem_cons, List.not_mem_nil, or_false] at hu
      omega
    · simp only [List.mem_cons, List.not_mem_nil, or_false] at hu
      omega
  | wide16 =>
    simp only [unitsOf, Utf16.unitsOf] at hu
    split at hu
    · simp only [List.mem_cons, List.not_mem_nil, or_false] at hu
      omega
    · simp only [List.mem_cons, List.not_mem_nil, or_false] at hu
      omega
  | wide32 =>
    simp only [unitsOf, List.mem_cons, List.not_mem_nil, or_false] at hu
    omega

/-- A unit of ASCII is written for the character of its number, and for no other one. -/
theorem mem_unitsOf_iff (hu : u < 0x80) : u ∈ w.unitsOf c ↔ c = CodePoint.ofNat u := by
  have hval : (CodePoint.ofNat u).val = u := CodePoint.val_ofNat (by omega)
  constructor
  · intro hmem
    have hc : c.IsAscii := by
      by_contra hc
      have hle := le_of_mem_unitsOf hc hmem
      omega
    rw [unitsOf_of_isAscii hc, List.mem_singleton] at hmem
    exact CodePoint.ext (hval.trans hmem).symm
  · rintro rfl
    have hascii : (CodePoint.ofNat u).IsAscii := by rwa [CodePoint.IsAscii, hval]
    rw [unitsOf_of_isAscii hascii, hval, List.mem_singleton]

theorem mem_units_iff (hu : u < 0x80) : u ∈ w.units cs ↔ CodePoint.ofNat u ∈ cs := by
  simp only [units, List.mem_flatMap, mem_unitsOf_iff hu, exists_eq_right]

theorem ofNat_mem_decode_iff (hu : u < 0x80) (hus : ∀ u ∈ us, u < w.codeLimit) :
    CodePoint.ofNat u ∈ w.decode us ↔ u ∈ us := by
  rw [← mem_units_iff hu, units_decode hus]

end Width

theorem Text.lt_codeLimit {t : Text} (ht : ∀ u ∈ t.units, u < 0x110000) :
    ∀ u ∈ t.units, u < t.width.codeLimit := by
  obtain ⟨k, us, hlt⟩ := t
  cases k with
  | bytes | byteBuffer | units8 | units16 => exact hlt
  | chars | units32 => exact ht

/-- A text of code points has the characters of its units. -/
theorem Text.decode_eq {t : Text} (ht : ∀ u ∈ t.units, u < 0x110000) :
    t.decode = .ok (t.width.decode t.units) := by
  obtain ⟨k, us, hlt⟩ := t
  cases k with
  | chars | bytes | byteBuffer | units8 | units16 => rfl
  | units32 => exact mapM_readUnit_eq_ok ht

/-! ## Pieces between separators -/

/-- Every sequence is free of separators, or it is a piece that is free of them, a separator and a
sequence behind it. -/
theorem cut_induction {α : Type} {motive : List α → Prop} (isSeparator : α → Bool)
    (free : ∀ us, (∀ u ∈ us, isSeparator u = false) → motive us)
    (cut : ∀ item sep us, (∀ u ∈ item, isSeparator u = false) → isSeparator sep = true →
      motive us → motive (item ++ sep :: us)) (us : List α) : motive us := by
  -- with what was read since the last separator
  have hseen : ∀ seen, (∀ u ∈ seen, isSeparator u = false) → motive (seen ++ us) := by
    induction us with
    | nil =>
      intro seen hseen
      rw [List.append_nil]
      exact free seen hseen
    | cons u us ih =>
      intro seen hseen
      cases hu : isSeparator u with
      | true => exact cut seen u us hseen hu (ih [] (List.forall_mem_nil _))
      | false =>
        rw [List.append_cons]
        refine ih (seen ++ [u]) (List.forall_mem_append.2 ⟨hseen, ?_⟩)
        exact List.forall_mem_singleton.2 hu
  exact hseen [] (List.forall_mem_nil _)

/-! ## Maps of ASCII -/

/-- A map of numbers that changes ASCII only, and keeps it ASCII. -/
structure MapsAscii (f : Nat → Nat) : Prop where
  lt : ∀ {u}, u < 0x80 → f u < 0x80
  eq_self : ∀ {u}, 0x80 ≤ u → f u = u

/-- The character whose number is mapped. -/
def CodePoint.mapVal (f : Nat → Nat) (c : CodePoint) : CodePoint := ofNat (f c.val)

namespace MapsAscii

variable {f : Nat → Nat} {c : CodePoint}

theorem map_eq_self {us : List Nat} (hf : MapsAscii f) (h : ∀ u ∈ us, 0x80 ≤ u) :
    us.map f = us :=
  (List.map_congr_left fun u hu => hf.eq_self (h u hu)).trans (List.map_id us)

theorem lt_of_lt {u n : Nat} (hf : MapsAscii f) (hn : 0x80 ≤ n) (hu : u < n) : f u < n := by
  by_cases hascii : u < 0x80
  · exact (hf.lt hascii).trans_le hn
  · rwa [hf.eq_self (Nat.not_lt.1 hascii)]

theorem val_mapVal (hf : MapsAscii f) (c : CodePoint) : (c.mapVal f).val = f c.val :=
  CodePoint.val_ofNat (hf.lt_of_lt (by decide) c.val_lt)

theorem mapVal_eq_self (hf : MapsAscii f) (hc : ¬c.IsAscii) : c.mapVal f = c := by
  simp only [CodePoint.IsAscii] at hc
  exact CodePoint.ext ((hf.val_mapVal c).trans (hf.eq_self (by omega)))

theorem isAscii_mapVal (hf : MapsAscii f) (hc : c.IsAscii) : (c.mapVal f).IsAscii := by
  rw [CodePoint.IsAscii, hf.val_mapVal]
  exact hf.lt hc

theorem not_isSurrogate_mapVal (hf : MapsAscii f) (hc : ¬c.IsSurrogate) :
    ¬(c.mapVal f).IsSurrogate := by
  by_cases hascii : c.IsAscii
  · exact (hf.isAscii_mapVal hascii).not_isSurrogate
  · rwa [hf.mapVal_eq_self hascii]

end MapsAscii

namespace Width

variable {w : Width} {f : Nat → Nat} {us : List Nat}

theorem unitsOf_mapVal (hf : MapsAscii f) (c : CodePoint) :
    w.unitsOf (c.mapVal f) = (w.unitsOf c).map f := by
  by_cases hc : c.IsAscii
  · rw [unitsOf_of_isAscii hc, unitsOf_of_isAscii (hf.isAscii_mapVal hc), hf.val_mapVal]
    rfl
  · rw [hf.mapVal_eq_self hc, hf.map_eq_self fun u hu => le_of_mem_unitsOf hc hu]

/-- Mapped characters are encoded as mapped units. -/
theorem units_map (hf : MapsAscii f) (cs : Chars) :
    w.units (cs.map (CodePoint.mapVal f)) = (w.units cs).map f := by
  simp only [units, List.flatMap_map, List.map_flatMap, unitsOf_mapVal hf]

/-- Characters of units beyond ASCII are left as they are. -/
theorem map_decode_of_le (hf : MapsAscii f) (hus : ∀ u ∈ us, u < w.codeLimit)
    (hle : ∀ u ∈ us, 0x80 ≤ u) : (w.decode us).map (CodePoint.mapVal f) = w.decode us := by
  have hself : ∀ c ∈ w.decode us, c.mapVal f = c := by
    intro c hc
    refine hf.mapVal_eq_self fun hascii => ?_
    rw [← CodePoint.ofNat_val c, ofNat_mem_decode_iff hascii hus] at hc
    exact absurd hascii (Nat.not_lt.2 (hle c.val hc))
  exact (List.map_congr_left hself).trans (List.map_id _)

/-- Mapped units are decoded to mapped characters. -/
theorem decode_map (hf : MapsAscii f) (hus : ∀ u ∈ us, u < w.codeLimit) :
    w.decode (us.map f) = (w.decode us).map (CodePoint.mapVal f) := by
  -- between units of ASCII, nothing is changed
  induction us using cut_induction (fun u => decide (u < 0x80)) with
  | free us hfree =>
    simp only [decide_eq_false_iff_not, Nat.not_lt] at hfree
    rw [hf.map_eq_self hfree, map_decode_of_le hf hus hfree]
  | cut item sep us hitem hsep ih =>
    rw [List.forall_mem_append, List.forall_mem_cons] at hus
    simp only [decide_eq_false_iff_not, Nat.not_lt] at hitem
    have hsep : sep < 0x80 := of_decide_eq_true hsep
    have hval : (CodePoint.ofNat sep).mapVal f = CodePoint.ofNat (f sep) := by
      rw [CodePoint.mapVal, CodePoint.val_ofNat (by omega)]
    rw [List.map_append, List.map_cons, hf.map_eq_self hitem, decode_append_cons (hf.lt hsep),
      decode_append_cons hsep, ih hus.2.2, List.map_append, List.map_cons,
      map_decode_of_le hf hus.1 hitem, hval]

end Width

end UnitText
