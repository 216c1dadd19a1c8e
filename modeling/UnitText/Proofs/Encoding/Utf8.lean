import UnitText.Encoding.Utf8

/-!
# Reading and writing UTF-8

Both ways round, nothing is lost. Bytes that are read and written again are the same bytes, whether
or not they were well-formed; characters that are no surrogates are read back from their bytes.

## Main statements

- `Utf8.bytes_decode` — reading, then writing
- `Utf8.decode_bytes` — writing, then reading
- `Utf8.isEncodable_of_mem_decode` — what was read can be written
-/

namespace UnitText

namespace Utf8

/-- Bytes that belong to a character already read are passed over. -/
theorem decodeFrom_eq_decode_drop (skip : Nat) (bs : List Nat) :
    decodeFrom skip bs = decode (bs.drop skip) := by
  induction skip generalizing bs with
  | zero => rfl
  | succ skip ih =>
    cases bs with
    | nil => rfl
    | cons b bs =>
      rw [decodeFrom, ih]
      rfl

/-- A byte that begins a character is read together with the bytes that belong to it. -/
theorem decode_cons_of_lead {a : Nat} {rest : List Nat} {c : CodePoint} {used : Nat}
    (h : lead? a rest = some (c, used)) : decode (a :: rest) = c :: decode (rest.drop used) := by
  rw [decode, decodeFrom, h]
  simp only [decodeFrom_eq_decode_drop]

theorem decode_cons_of_not_lead {a : Nat} {rest : List Nat} (h : lead? a rest = none) :
    decode (a :: rest) = escape a :: decode rest := by
  rw [decode, decodeFrom, h]
  rfl

/-! ## The bytes of one character -/

theorem IsEscape.isSurrogate {c : CodePoint} (h : IsEscape c) : c.IsSurrogate := by
  obtain ⟨h1, h2⟩ := h
  exact ⟨by omega, by omega⟩

theorem bytesOf_escape {b : Nat} (hb : 0x80 ≤ b) (hb' : b < 0x100) : bytesOf (escape b) = [b] := by
  have hval : (escape b).val = 0xDC00 + b := CodePoint.val_ofNat (by omega)
  have hesc : IsEscape (escape b) := ⟨by omega, by omega⟩
  simp only [bytesOf, hval]
  rw [if_neg (by omega), if_neg (by omega), if_pos hesc, Nat.add_sub_cancel_left]

/-- The bytes of a character that is no surrogate, by its size. -/
theorem bytesOf_of_not_isSurrogate {c : CodePoint} (hc : ¬c.IsSurrogate) :
    bytesOf c =
      if c.val < 0x80 then [c.val]
      else if c.val < 0x800 then [0xC0 + c.val / 0x40, 0x80 + c.val % 0x40]
      else if c.val < 0x10000 then
        [0xE0 + c.val / 0x1000, 0x80 + c.val / 0x40 % 0x40, 0x80 + c.val % 0x40]
      else
        [0xF0 + c.val / 0x40000, 0x80 + c.val / 0x1000 % 0x40, 0x80 + c.val / 0x40 % 0x40,
          0x80 + c.val % 0x40] := by
  have hesc : ¬IsEscape c := fun h => hc h.isSurrogate
  simp only [bytesOf, if_neg hesc]

private theorem pair?_bytes {a b : Nat} {c : CodePoint} (ha : 0xC0 ≤ a) (ha' : a < 0xE0)
    (h : pair? a b = some c) : bytesOf c = [a, b] ∧ ¬c.IsSurrogate := by
  simp only [pair?] at h
  split at h
  · next hv =>
    obtain ⟨⟨hb, hb'⟩, hv⟩ := hv
    obtain rfl := Option.some.inj h
    have hval := CodePoint.val_ofNat (n := (a - 0xC0) * 0x40 + (b - 0x80)) (by omega)
    have hs : ¬(CodePoint.ofNat ((a - 0xC0) * 0x40 + (b - 0x80))).IsSurrogate := by
      simp only [CodePoint.IsSurrogate, hval]
      omega
    refine ⟨?_, hs⟩
    have h1 : 0xC0 + ((a - 0xC0) * 0x40 + (b - 0x80)) / 0x40 = a := by omega
    have h2 : 0x80 + ((a - 0xC0) * 0x40 + (b - 0x80)) % 0x40 = b := by omega
    rw [bytesOf_of_not_isSurrogate hs, hval, if_neg (by omega), if_pos (by omega), h1, h2]
  · cases h

private theorem triple?_bytes {a b d : Nat} {c : CodePoint} (ha : 0xE0 ≤ a) (ha' : a < 0xF0)
    (h : triple? a b d = some c) : bytesOf c = [a, b, d] ∧ ¬c.IsSurrogate := by
  simp only [triple?] at h
  split at h
  · next hv =>
    obtain ⟨⟨hb, hb'⟩, ⟨hd, hd'⟩, hv, hs⟩ := hv
    obtain rfl := Option.some.inj h
    have hval := CodePoint.val_ofNat
      (n := ((a - 0xE0) * 0x40 + (b - 0x80)) * 0x40 + (d - 0x80)) (by omega)
    have hs : ¬(CodePoint.ofNat
        (((a - 0xE0) * 0x40 + (b - 0x80)) * 0x40 + (d - 0x80))).IsSurrogate := by
      simpa only [CodePoint.IsSurrogate, hval] using hs
    refine ⟨?_, hs⟩
    -- each byte is a digit of the number to the base of 64, above its mark
    generalize hv' : ((a - 0xE0) * 0x40 + (b - 0x80)) * 0x40 + (d - 0x80) = v at *
    have h1 : 0xE0 + v / 0x1000 = a := by omega
    have h2 : 0x80 + v / 0x40 % 0x40 = b := by omega
    have h3 : 0x80 + v % 0x40 = d := by omega
    rw [bytesOf_of_not_isSurrogate hs, hval, if_neg (by omega), if_neg (by omega),
      if_pos (by omega), h1, h2, h3]
  · cases h

private theorem quadruple?_bytes {a b d e : Nat} {c : CodePoint} (ha : 0xF0 ≤ a)
    (h : quadruple? a b d e = some c) : bytesOf c = [a, b, d, e] ∧ ¬c.IsSurrogate := by
  simp only [quadruple?] at h
  split at h
  · next hv =>
    obtain ⟨⟨hb, hb'⟩, ⟨hd, hd'⟩, ⟨he, he'⟩, hv, hv'⟩ := hv
    obtain rfl := Option.some.inj h
    have hval := CodePoint.val_ofNat
      (n := (((a - 0xF0) * 0x40 + (b - 0x80)) * 0x40 + (d - 0x80)) * 0x40 + (e - 0x80)) hv'
    have hs : ¬(CodePoint.ofNat ((((a - 0xF0) * 0x40 + (b - 0x80)) * 0x40 + (d - 0x80)) * 0x40 +
        (e - 0x80))).IsSurrogate := by
      simp only [CodePoint.IsSurrogate, hval]
      omega
    refine ⟨?_, hs⟩
    generalize hv'' :
      (((a - 0xF0) * 0x40 + (b - 0x80)) * 0x40 + (d - 0x80)) * 0x40 + (e - 0x80) = v at *
    have h1 : 0xF0 + v / 0x40000 = a := by omega
    have h2 : 0x80 + v / 0x1000 % 0x40 = b := by omega
    have h3 : 0x80 + v / 0x40 % 0x40 = d := by omega
    have h4 : 0x80 + v % 0x40 = e := by omega
    rw [bytesOf_of_not_isSurrogate hs, hval, if_neg (by omega), if_neg (by omega),
      if_neg (by omega), h1, h2, h3, h4]
  · cases h

/-- The character that a byte begins has the bytes it was read from. No surrogate is read. -/
theorem bytesOf_of_lead {a : Nat} {rest : List Nat} {c : CodePoint} {used : Nat}
    (h : lead? a rest = some (c, used)) :
    bytesOf c = a :: rest.take used ∧ ¬c.IsSurrogate := by
  simp only [lead?] at h
  split at h
  · next ha =>
    cases h
    have hval := CodePoint.val_ofNat (n := a) (by omega)
    simp only [bytesOf, CodePoint.IsSurrogate, hval]
    rw [if_pos ha]
    exact ⟨rfl, by omega⟩
  split at h
  · cases h
  split at h
  · split at h
    · obtain ⟨d, hd, he⟩ := Option.map_eq_some_iff.1 h
      cases he
      exact pair?_bytes (by omega) (by assumption) hd
    · cases h
  split at h
  · split at h
    · obtain ⟨d, hd, he⟩ := Option.map_eq_some_iff.1 h
      cases he
      exact triple?_bytes (by omega) (by assumption) hd
    · cases h
  · split at h
    · obtain ⟨d, hd, he⟩ := Option.map_eq_some_iff.1 h
      cases he
      exact quadruple?_bytes (by omega) hd
    · cases h

/-- Only bytes above ASCII begin no character. -/
theorem le_of_lead_eq_none {a : Nat} {rest : List Nat} (h : lead? a rest = none) : 0x80 ≤ a := by
  simp only [lead?] at h
  split at h
  · cases h
  · omega

/-- The bytes of a character that is no surrogate begin that character, whatever follows. -/
theorem lead_bytesOf {c : CodePoint} (hc : ¬c.IsSurrogate) (rest : List Nat) :
    ∃ a tail, bytesOf c = a :: tail ∧ lead? a (tail ++ rest) = some (c, tail.length) := by
  have hlt := c.val_lt
  have heq : ∀ n, n = c.val → CodePoint.ofNat n = c := by
    rintro n rfl
    exact CodePoint.ofNat_val c
  rw [bytesOf_of_not_isSurrogate hc]
  simp only [CodePoint.IsSurrogate] at hc
  split
  · next h1 => exact ⟨_, _, rfl, by simp [lead?, h1]⟩
  split
  · next h1 h2 =>
    refine ⟨_, _, rfl, ?_⟩
    have hb : IsContinuation (0x80 + c.val % 0x40) := ⟨by omega, by omega⟩
    simp only [lead?, pair?, List.cons_append, List.nil_append]
    rw [if_neg (by omega), if_neg (by omega), if_pos (by omega), if_pos ⟨hb, by omega⟩,
      Option.map_some, heq _ (by omega)]
    rfl
  split
  · next h1 h2 h3 =>
    refine ⟨_, _, rfl, ?_⟩
    have hb : IsContinuation (0x80 + c.val / 0x40 % 0x40) := ⟨by omega, by omega⟩
    have hd : IsContinuation (0x80 + c.val % 0x40) := ⟨by omega, by omega⟩
    simp only [lead?, triple?, List.cons_append, List.nil_append]
    rw [if_neg (by omega), if_neg (by omega), if_neg (by omega), if_pos (by omega),
      if_pos ⟨hb, hd, by omega, by omega⟩, Option.map_some, heq _ (by omega)]
    rfl
  · next h1 h2 h3 =>
    refine ⟨_, _, rfl, ?_⟩
    have hb : IsContinuation (0x80 + c.val / 0x1000 % 0x40) := ⟨by omega, by omega⟩
    have hd : IsContinuation (0x80 + c.val / 0x40 % 0x40) := ⟨by omega, by omega⟩
    have he : IsContinuation (0x80 + c.val % 0x40) := ⟨by omega, by omega⟩
    simp only [lead?, quadruple?, List.cons_append, List.nil_append]
    rw [if_neg (by omega), if_neg (by omega), if_neg (by omega), if_neg (by omega),
      if_pos ⟨hb, hd, he, by omega, by omega⟩, Option.map_some, heq _ (by omega)]
    rfl

theorem lt_of_mem_bytesOf {c : CodePoint} {b : Nat} (hb : b ∈ bytesOf c) : b < 0x100 := by
  have hlt := c.val_lt
  simp only [bytesOf] at hb
  split at hb
  · simp only [List.mem_cons, List.not_mem_nil, or_false] at hb
    omega
  split at hb
  · simp only [List.mem_cons, List.not_mem_nil, or_false] at hb
    omega
  split at hb
  · next he =>
    obtain ⟨he, he'⟩ := he
    simp only [List.mem_cons, List.not_mem_nil, or_false] at hb
    omega
  split at hb
  · simp only [List.mem_cons, List.not_mem_nil, or_false] at hb
    omega
  · simp only [List.mem_cons, List.not_mem_nil, or_false] at hb
    omega

/-! ## Sequences -/

/-- Bytes that are read and written again are the same bytes, damaged ones included. -/
theorem bytes_decode {bs : List Nat} (hbs : ∀ b ∈ bs, b < 0x100) : bytes (decode bs) = bs := by
  -- on the number of bytes, because a character takes several of them at once
  induction hn : bs.length using Nat.strongRecOn generalizing bs with
  | ind n ih =>
    cases bs with
    | nil => rfl
    | cons a rest =>
      simp only [List.length_cons] at hn
      simp only [List.forall_mem_cons] at hbs
      cases hl : lead? a rest with
      | none =>
        rw [decode_cons_of_not_lead hl, bytes_cons, bytesOf_escape (le_of_lead_eq_none hl) hbs.1,
          ih rest.length (by omega) hbs.2 rfl]
        rfl
      | some cu =>
        obtain ⟨c, used⟩ := cu
        have hdrop : ∀ b ∈ rest.drop used, b < 0x100 :=
          fun b hb => hbs.2 b (List.mem_of_mem_drop hb)
        rw [decode_cons_of_lead hl, bytes_cons, (bytesOf_of_lead hl).1,
          ih (rest.drop used).length (by rw [List.length_drop]; omega) hdrop rfl,
          List.cons_append, List.take_append_drop]

theorem decode_bytesOf_append {c : CodePoint} (hc : ¬c.IsSurrogate) (rest : List Nat) :
    decode (bytesOf c ++ rest) = c :: decode rest := by
  obtain ⟨a, tail, hbytes, hlead⟩ := lead_bytesOf hc rest
  rw [hbytes, List.cons_append, decode_cons_of_lead hlead, List.drop_left]

theorem decode_bytes {cs : Chars} (hcs : ∀ c ∈ cs, ¬c.IsSurrogate) : decode (bytes cs) = cs := by
  induction cs with
  | nil => rfl
  | cons c cs ih =>
    simp only [List.forall_mem_cons] at hcs
    rw [bytes_cons, decode_bytesOf_append hcs.1, ih hcs.2]

/-- What was read from bytes can be written as bytes. -/
theorem isEncodable_of_mem_decode {bs : List Nat} (hbs : ∀ b ∈ bs, b < 0x100) :
    ∀ c ∈ decode bs, IsEncodable c := by
  induction hn : bs.length using Nat.strongRecOn generalizing bs with
  | ind n ih =>
    cases bs with
    | nil => exact fun _ hc => nomatch hc
    | cons a rest =>
      simp only [List.length_cons] at hn
      simp only [List.forall_mem_cons] at hbs
      cases hl : lead? a rest with
      | none =>
        have ha := le_of_lead_eq_none hl
        have hval : (escape a).val = 0xDC00 + a := CodePoint.val_ofNat (by omega)
        rw [decode_cons_of_not_lead hl, List.forall_mem_cons]
        refine ⟨.inr ?_, ih rest.length (by omega) hbs.2 rfl⟩
        simp only [IsEscape, hval]
        omega
      | some cu =>
        obtain ⟨c, used⟩ := cu
        rw [decode_cons_of_lead hl, List.forall_mem_cons]
        refine ⟨.inl (bytesOf_of_lead hl).2, ih (rest.drop used).length ?_ ?_ rfl⟩
        · rw [List.length_drop]
          omega
        · exact fun b hb => hbs.2 b (List.mem_of_mem_drop hb)

end Utf8

end UnitText
