import UnitText.Proofs.Format.Fits
import UnitText.Proofs.Format.Place
import UnitText.Proofs.Value.Failures

/-!
# Output does not fail to be encoded

A conversion counts the units of texts only after it has looked at them, and of no value that is a
string: such a value has become a text before. So its characters always have units, and whatever
makes a conversion fail is something else.

## Main definitions

- `Piece.IsProper` — a piece that holds no string as a mere value

## Main statements

- `Field.isProper_of_render` — what a conversion writes is proper
- `Field.faultFree_render` — no conversion fails because an encoding lacks characters
-/

namespace UnitText

/-! ## Counting and cutting -/

namespace Value

variable {w : Width} {v u : Value}

theorem faultFree_unitCount (h : v.chars? = Option.none) : FaultFree (v.unitCount w) := by
  have hchars : FaultFree v.asChars := by
    rw [asChars, h]
    exact faultFree_error.2 nofun
  cases w with
  | wide32 => exact v.faultFree_size
  | narrow | wide16 =>
    refine hchars.bind fun cs hcs => ?_
    rw [asChars, h] at hcs
    cases hcs

theorem chars?_of_take {limit : Int} (h : v.chars? = Option.none) (hu : v.take limit = .ok u) :
    u.chars? = Option.none := by
  unfold take at hu
  split at hu
  case h_1 t =>
    obtain rfl := Except.ok.inj hu
    rw [chars?] at h ⊢
    split at h
    · cases h
    · next hk => exact if_neg hk
  all_goals cases hu
  all_goals rfl

theorem chars?_of_truncate {limit : Int} (h : v.chars? = Option.none)
    (hu : v.truncate w limit = .ok u) : u.chars? = Option.none := by
  unfold truncate at hu
  split at hu
  · exact chars?_of_take h hu
  · next hv =>
    rw [h] at hv
    cases hv
  · obtain ⟨items, _, hu⟩ := bind_eq_ok.1 hu
    split at hu
    · cases hu
      exact h
    · cases hu

theorem faultFree_truncate {limit : Int} (h : v.chars? = Option.none) :
    FaultFree (v.truncate w limit) := by
  unfold truncate
  split
  · exact v.faultFree_take limit
  · next hv =>
    rw [h] at hv
    cases hv
  · refine v.faultFree_items.bind fun items _ => ?_
    split <;> simp

end Value

/-! ## Pieces -/

namespace Piece

/-- A piece that holds no string as a mere value. -/
def IsProper : Piece → Prop
  | chars _ => True
  | value v => v.chars? = none

theorem isProper_ofValue (v : Value) : (ofValue v).IsProper := by
  unfold ofValue
  split
  · trivial
  · next h => exact h

theorem faultFree_isEmpty (p : Piece) : FaultFree p.isEmpty := by
  cases p with
  | chars cs => exact faultFree_ok
  | value v => exact v.faultFree_isTrue.bind fun _ _ => faultFree_pure

theorem IsProper.faultFree_length {p : Piece} (h : p.IsProper) (w : Width) :
    FaultFree (p.length w) := by
  cases p with
  | chars cs => exact faultFree_ok
  | value v => exact Value.faultFree_unitCount h

theorem faultFree_joinFrom (ps : List Piece) (n : Nat) : FaultFree (joinFrom n ps) := by
  induction ps generalizing n with
  | nil => exact faultFree_ok
  | cons p ps ih =>
    cases p with
    | chars cs => exact (ih (n + 1)).bind fun _ _ => faultFree_pure
    | value v => exact faultFree_error.2 nofun

end Piece

/-! ## Arguments -/

namespace Argument

theorem faultFree_check (a : Argument) (s : Specifier) : FaultFree (a.check s) := by
  have hsuits : FaultFree (a.suits s.kind) := by
    unfold suits
    split
    case h_8 => exact a.value.faultFree_size.bind fun _ _ => faultFree_pure
    all_goals exact faultFree_ok
  refine hsuits.bind fun b _ => ?_
  split
  · exact a.value.faultFree_quoted.bind fun _ _ => faultFree_throw.2 nofun
  · exact faultFree_pure

theorem faultFree_starValue (a : Argument) (s : Specifier) (role : StarRole) :
    FaultFree (a.starValue s role) := by
  unfold starValue
  split
  · exact a.value.faultFree_toInteger.bind fun _ _ => faultFree_pure
  · exact a.value.faultFree_quoted.bind fun _ _ => faultFree_throw.2 nofun

end Argument

namespace Field

variable (f : Field) {a : Argument}

/-! ## Filling a field -/

theorem faultFree_filling (c : Char) (n : Nat) : FaultFree (filling c n) := by
  unfold filling
  split <;> simp

theorem faultFree_padText (cs : Chars) : FaultFree (f.padText cs) :=
  (faultFree_filling _ _).bind fun _ _ => faultFree_pure

theorem faultFree_padNumber (start digits : Chars) (zeros : Bool) :
    FaultFree (f.padNumber start digits zeros) :=
  (faultFree_filling _ _).bind fun _ _ => faultFree_pure

theorem fillFailure_ne_encoding (fill : Nat) (v : Value) (fault : EncodingFault) :
    f.fillFailure fill v ≠ .encoding fault := by
  unfold fillFailure
  split
  · simp only
    split <;> exact nofun
  · exact nofun
  · exact nofun

theorem faultFree_padPiece {p : Piece} (h : p.IsProper) : FaultFree (f.padPiece p) := by
  cases p with
  | chars cs => exact (f.faultFree_padText cs).bind fun _ _ => faultFree_pure
  | value v =>
    refine (Value.faultFree_unitCount h).bind fun n _ => ?_
    simp only
    split
    · exact faultFree_throw.2 nofun
    · split
      · exact faultFree_throw.2 (f.fillFailure_ne_encoding _ v)
      · exact faultFree_pure

theorem isProper_of_padPiece {p q : Piece} (h : p.IsProper) (hq : f.padPiece p = .ok q) :
    q.IsProper := by
  cases p with
  | chars cs =>
    obtain ⟨_, _, hq⟩ := bind_eq_ok.1 hq
    obtain rfl := pure_eq_ok.1 hq
    trivial
  | value v =>
    obtain ⟨n, _, hq⟩ := bind_eq_ok.1 hq
    simp only at hq
    split at hq
    · cases hq
    · split at hq
      · cases hq
      · cases hq
        exact h

/-! ## Numbers -/

theorem faultFree_signedDigits (negative isZero : Bool) (digits : List Char) :
    FaultFree (f.signedDigits negative isZero digits) := by
  have hprecise : FaultFree (f.precise isZero digits) := by
    unfold precise
    split
    · exact faultFree_ok
    · split <;> simp
  exact hprecise.bind fun _ _ => f.faultFree_padNumber _ _ _

theorem faultFree_truth (form : IntegerForm) (v : Value) : FaultFree (f.truth form v) := by
  unfold truth
  split
  · split
    · exact f.faultFree_padText _
    · exact f.faultFree_signedDigits _ _ _
  · refine (Value.faultFree_magnitude _).bind fun m _ => ?_
    refine (m.faultFree_layout _).bind fun _ _ => ?_
    exact m.faultFree_isZero.bind fun _ _ => f.faultFree_signedDigits _ _ _

theorem faultFree_integer (form : IntegerForm) (a : Argument) : FaultFree (f.integer form a) := by
  refine (a.faultFree_check f.spec).bind fun _ _ => ?_
  split
  · exact f.faultFree_truth form a.value
  · exact a.value.faultFree_toInteger.bind fun _ _ => f.faultFree_signedDigits _ _ _

theorem faultFree_finiteDouble (form : FloatForm) (negative : Bool) (size : Double) :
    FaultFree (f.finiteDouble form negative size) := by
  have hprecision : FaultFree f.floatPrecision := by
    unfold floatPrecision
    simp only
    repeat' split
    all_goals simp
  exact hprecision.bind fun _ _ => f.faultFree_padNumber _ _ _

theorem faultFree_double (form : FloatForm) (x : Double) : FaultFree (f.double form x) := by
  unfold double
  split
  · exact f.faultFree_padNumber _ _ _
  · split
    · unfold hexDouble
      split
      · exact faultFree_error.2 nofun
      · exact f.faultFree_padNumber _ _ _
    · exact f.faultFree_finiteDouble _ _ _

theorem faultFree_decimal (form : FloatForm) (d : Decimal) : FaultFree (f.decimal form d) := by
  unfold decimal
  split
  · exact (Decimal.faultFree_toDouble _).bind fun _ _ => f.faultFree_double _ _
  · refine (Decimal.faultFree_abs _).bind fun size _ => ?_
    split
    · refine (Decimal.faultFree_places _).bind fun _ _ => ?_
      exact f.faultFree_padNumber _ _ _
    · exact (Decimal.faultFree_toDouble _).bind fun _ _ => f.faultFree_double _ _
  · exact (Decimal.faultFree_toDouble _).bind fun _ _ => f.faultFree_double _ _

theorem faultFree_fixedPoint (form : FloatForm) (v : Value) :
    FaultFree (f.fixedPoint form v) := by
  unfold fixedPoint
  split
  · exact (Value.faultFree_toFloat _).bind fun _ _ => f.faultFree_double _ _
  · exact f.faultFree_decimal _ _
  · refine (Value.faultFree_toReal _).bind fun x _ => ?_
    split
    · refine (Value.faultFree_magnitude _).bind fun m _ => ?_
      exact m.faultFree_toReal.bind fun _ _ => f.faultFree_finiteDouble _ _ _
    · exact f.faultFree_padNumber _ _ _

theorem faultFree_nearest (s : Specifier) (v : Value) : FaultFree (nearest s v) := by
  unfold nearest
  split
  · exact v.faultFree_plainText.bind fun _ _ => faultFree_throw.2 nofun
  · exact v.faultFree_toFloat

theorem faultFree_float (form : FloatForm) (a : Argument) : FaultFree (f.float form a) := by
  refine (a.faultFree_check f.spec).bind fun _ _ => ?_
  split
  · exact f.faultFree_fixedPoint form a.value
  · exact (faultFree_nearest f.spec a.value).bind fun _ _ => f.faultFree_double _ _

/-! ## Texts -/

theorem faultFree_writable {p : Piece} (h : p.IsProper) : FaultFree (f.writable p) := by
  cases p with
  | chars cs =>
    have htext : FaultFree (f.writableText cs) := by
      unfold writableText
      split <;> simp
    exact htext.bind fun _ _ => faultFree_pure
  | value v => exact (Value.faultFree_unitCount h).bind fun _ _ => faultFree_pure

theorem writable_eq_ok {p q : Piece} (h : f.writable p = .ok q) : q = p := by
  cases p with
  | chars cs =>
    obtain ⟨ds, hds, h⟩ := bind_eq_ok.1 h
    rw [writableText] at hds
    split at hds
    · cases hds
      exact (pure_eq_ok.1 h).symm
    · cases hds
  | value v =>
    obtain ⟨_, _, h⟩ := bind_eq_ok.1 h
    exact (pure_eq_ok.1 h).symm

theorem faultFree_truncated {p : Piece} (h : f.writable p = .ok p) (hp : p.IsProper) :
    FaultFree (f.truncated p) := by
  unfold truncated
  split
  · exact faultFree_ok
  · obtain ⟨ds, hds⟩ := Width.exists_truncate (holds_of_writable h) _
    rw [hds]
    exact faultFree_pure
  · exact (Value.faultFree_truncate hp).bind fun _ _ => faultFree_pure

theorem isProper_of_truncated {p q : Piece} (hp : p.IsProper) (h : f.truncated p = .ok q) :
    q.IsProper := by
  unfold truncated at h
  split at h
  · cases h
    exact hp
  · obtain ⟨_, _, h⟩ := bind_eq_ok.1 h
    obtain rfl := pure_eq_ok.1 h
    trivial
  · obtain ⟨u, hu, h⟩ := bind_eq_ok.1 h
    obtain rfl := pure_eq_ok.1 h
    exact Value.chars?_of_truncate hp hu

theorem isProper_of_charPiece {s : Specifier} {p : Piece} (h : charPiece s a = .ok p) :
    p.IsProper := by
  unfold charPiece at h
  split at h
  · obtain ⟨_, _, h⟩ := bind_eq_ok.1 h
    obtain ⟨_, _, h⟩ := bind_eq_ok.1 h
    obtain rfl := pure_eq_ok.1 h
    trivial
  · obtain rfl := pure_eq_ok.1 h
    exact Piece.isProper_ofValue a.value

theorem isProper_of_stringPiece {p : Piece} (h : stringPiece a = .ok p) : p.IsProper := by
  unfold stringPiece at h
  split at h
  · obtain rfl := pure_eq_ok.1 h
    exact Piece.isProper_ofValue a.value
  · obtain ⟨_, _, h⟩ := bind_eq_ok.1 h
    obtain rfl := pure_eq_ok.1 h
    trivial

theorem faultFree_char (a : Argument) : FaultFree (f.char a) := by
  have hnumbered : ∀ n, FaultFree (numberedChar f.spec n) := by
    intro n
    unfold numberedChar
    simp only
    split
    · split <;> simp
    · exact faultFree_error.2 nofun
  have hpiece : FaultFree (charPiece f.spec a) := by
    unfold charPiece
    split
    · refine a.value.faultFree_toInteger.bind fun n _ => ?_
      exact (hnumbered n).bind fun _ _ => faultFree_pure
    · exact faultFree_pure
  refine (a.faultFree_check f.spec).bind fun _ _ => hpiece.bind fun p hp => ?_
  have hproper := isProper_of_charPiece hp
  refine (f.faultFree_writable hproper).bind fun q hq => ?_
  rw [f.writable_eq_ok hq]
  exact f.faultFree_padPiece hproper

theorem faultFree_string (a : Argument) : FaultFree (f.string a) := by
  have hpiece : FaultFree (stringPiece a) := by
    unfold stringPiece
    split
    · exact faultFree_pure
    · exact (a.value.faultFree_render a.domain).bind fun _ _ => faultFree_pure
  refine (a.faultFree_check f.spec).bind fun _ _ => hpiece.bind fun p hp => ?_
  have hproper := isProper_of_stringPiece hp
  refine (f.faultFree_writable hproper).bind fun q hq => ?_
  obtain rfl := f.writable_eq_ok hq
  refine (f.faultFree_truncated hq hproper).bind fun t ht => ?_
  exact f.faultFree_padPiece (f.isProper_of_truncated hproper ht)

theorem faultFree_count (a : Argument) : FaultFree (f.count a) :=
  (a.faultFree_check f.spec).bind fun _ _ =>
    (a.value.faultFree_store f.written).bind fun _ _ => faultFree_pure

/-- No conversion fails because an encoding lacks characters. -/
theorem faultFree_render (a : Argument) : FaultFree (f.render a) := by
  unfold render
  split
  · exact (f.faultFree_integer _ a).bind fun _ _ => faultFree_pure
  · exact (f.faultFree_float _ a).bind fun _ _ => faultFree_pure
  · exact f.faultFree_char a
  · exact f.faultFree_string a
  · have hpointer : FaultFree (f.pointer a) := (a.faultFree_check f.spec).bind fun _ _ =>
      a.value.faultFree_toInteger.bind fun _ _ => f.faultFree_padText _
    exact hpointer.bind fun _ _ => faultFree_pure
  · exact f.faultFree_count a
  · exact (f.faultFree_padText _).bind fun _ _ => faultFree_pure

/-- What a conversion writes holds no string as a mere value. -/
theorem isProper_of_render {p : Piece} (h : f.render a = .ok p) : p.IsProper := by
  unfold render at h
  split at h
  case h_3 =>
    obtain ⟨_, _, h⟩ := bind_eq_ok.1 h
    obtain ⟨q, hq, h⟩ := bind_eq_ok.1 h
    obtain ⟨t, hwritable, hpad⟩ := bind_eq_ok.1 h
    obtain rfl := f.writable_eq_ok hwritable
    exact f.isProper_of_padPiece (isProper_of_charPiece hq) hpad
  case h_4 =>
    obtain ⟨_, _, h⟩ := bind_eq_ok.1 h
    obtain ⟨q, hq, h⟩ := bind_eq_ok.1 h
    obtain ⟨t, hwritable, h⟩ := bind_eq_ok.1 h
    obtain ⟨u, htruncated, hpad⟩ := bind_eq_ok.1 h
    obtain rfl := f.writable_eq_ok hwritable
    have hproper := f.isProper_of_truncated (isProper_of_stringPiece hq) htruncated
    exact f.isProper_of_padPiece hproper hpad
  case h_6 =>
    obtain ⟨_, _, h⟩ := bind_eq_ok.1 h
    obtain ⟨_, _, h⟩ := bind_eq_ok.1 h
    obtain rfl := pure_eq_ok.1 h
    trivial
  all_goals
    obtain ⟨_, _, h⟩ := bind_eq_ok.1 h
    obtain rfl := pure_eq_ok.1 h
    trivial

end Field

/-! ## Texts that do not fit -/

/-- The text that a text or a character conversion is about to write of an argument. -/
inductive Specifier.Writes (s : Specifier) (a : Argument) : Chars → Prop where
  | text {cs : Chars} (hkind : s.kind = .string) (h : Field.stringPiece a = .ok (.chars cs)) :
    Writes s a cs
  | character {cs : Chars} (hkind : s.kind = .char) (hfamily : a.family ≠ .integer)
    (h : a.value.chars? = some cs) : Writes s a cs
  /-- The character with a number, which is stored in 32 bits with the modifier `l`, and else
  in 8. -/
  | number {n : Int} {c : CodePoint} (hkind : s.kind = .char) (hfamily : a.family = .integer)
    (hn : a.value.toInteger = .ok n)
    (h : c.val = (Integer.wrap (if s.length = .l then 32 else 8) false n).toNat) :
    Writes s a [c]

theorem not_isSurrogate_of_mem_ofString {s : String} {c : CodePoint} (h : c ∈ Chars.ofString s) :
    ¬c.IsSurrogate := by
  obtain ⟨d, -, rfl⟩ := List.mem_map.1 h
  exact CodePoint.not_isSurrogate_ofChar d

namespace Value

variable {v : Value} {cs : Chars} {c : CodePoint}

/-- Surrogates come from strings and from objects, which messages can show. -/
theorem exists_quoted_of_plainText (h : v.plainText = .ok cs) (hc : c ∈ cs)
    (hsurrogate : c.IsSurrogate) : ∃ q, v.quoted = .ok q := by
  unfold plainText at h
  split at h
  case h_1 => exact ⟨_, rfl⟩
  case h_11 => exact ⟨_, rfl⟩
  case h_6 =>
    obtain ⟨_, _, h⟩ := bind_eq_ok.1 h
    obtain rfl := pure_eq_ok.1 h
    exact absurd hsurrogate (not_isSurrogate_of_mem_ofString hc)
  case h_12 =>
    obtain ⟨_, _, h⟩ := bind_eq_ok.1 h
    obtain rfl := pure_eq_ok.1 h
    exact absurd hsurrogate (not_isSurrogate_of_mem_ofString hc)
  all_goals
    obtain rfl := Except.ok.inj h
    exact absurd hsurrogate (not_isSurrogate_of_mem_ofString hc)

theorem exists_quoted_of_render {domain : Option Domain} (h : v.render domain = .ok cs)
    (hc : c ∈ cs) (hsurrogate : c.IsSurrogate) : ∃ q, v.quoted = .ok q := by
  unfold render at h
  split at h
  case h_7 => exact ⟨_, rfl⟩
  case h_9 => exact exists_quoted_of_plainText h hc hsurrogate
  case h_2 | h_8 =>
    obtain ⟨_, _, h⟩ := bind_eq_ok.1 h
    obtain rfl := pure_eq_ok.1 h
    exact absurd hsurrogate (not_isSurrogate_of_mem_ofString hc)
  case h_3 | h_4 | h_5 | h_6 =>
    obtain rfl := Except.ok.inj h
    exact absurd hsurrogate (not_isSurrogate_of_mem_ofString hc)
  all_goals cases h

end Value

namespace Argument

variable {a : Argument} {s : Specifier}

/-- An argument that messages can show is taken, or refused with the place of the specifier. -/
theorem check_eq_or {b : Bool} {q : String} (hb : a.suits s.kind = .ok b) (hq : a.quoted = .ok q) :
    a.check s = .ok () ∨ a.check s = .error (.problem (.cannotFormat s a.description q)) := by
  cases b with
  | true => exact .inl (check_eq_ok.2 hb)
  | false =>
    right
    rw [check, hb, hq]
    rfl

/-- An argument whose text is about to be written is taken, or refused with the place of the
specifier. -/
theorem check_of_writes {cs : Chars} {c : CodePoint} (h : s.Writes a cs) (hc : c ∈ cs)
    (hsurrogate : c.IsSurrogate) : a.check s = .ok () ∨
      ∃ q, a.check s = .error (.problem (.cannotFormat s a.description q)) := by
  have hshown : ∀ {q b}, a.quoted = .ok q → a.suits s.kind = .ok b → a.check s = .ok () ∨
      ∃ q, a.check s = .error (.problem (.cannotFormat s a.description q)) :=
    fun hq hb => (check_eq_or hb hq).imp_right fun hcheck => ⟨_, hcheck⟩
  cases h with
  | number hkind hfamily hn h =>
    left
    rw [check_eq_ok, hkind]
    simp only [suits, hfamily]
  | character hkind hfamily h =>
    -- the value is a string, which has a size and can be shown
    obtain ⟨t, ht⟩ : ∃ t, a.value = .text t := by
      unfold Value.chars? at h
      split at h
      · next t hv => exact ⟨t, hv⟩
      · cases h
    have hquoted : a.quoted = .ok t.quoted := by rw [quoted, ht]; rfl
    obtain ⟨b, hb⟩ : ∃ b, a.suits s.kind = .ok b := by
      rw [hkind]
      cases hf : a.family with
      | text => simp [suits, hf, ht, Value.size, Bind.bind, Except.bind, Pure.pure, Except.pure]
      | _ => simp [suits, hf]
    exact hshown hquoted hb
  | text hkind h =>
    by_cases hfamily : a.family = .text ∨ a.family = .character
    · left
      rw [check_eq_ok, hkind]
      rcases hfamily with hfamily | hfamily
      all_goals simp only [suits, hfamily]
    · rw [Field.stringPiece, if_neg hfamily] at h
      obtain ⟨ds, hds, h⟩ := bind_eq_ok.1 h
      obtain rfl : ds = cs := by simpa using pure_eq_ok.1 h
      obtain ⟨q, hq⟩ := Value.exists_quoted_of_render hds hc hsurrogate
      obtain ⟨b, hb⟩ : ∃ b, a.suits s.kind = .ok b := by
        rw [hkind]
        cases hf : a.family <;> simp [suits, hf]
      exact hshown hq hb

end Argument

namespace Field

variable {f : Field} {a : Argument} {cs : Chars} {c : CodePoint}

/-- A text with a surrogate that is no escape is not written in narrow text. -/
theorem writable_eq_error (hwidth : f.charWidth = .narrow) (hc : c ∈ cs)
    (hsurrogate : c.IsSurrogate) (hescape : ¬Utf8.IsEscape c) :
    ∃ d, f.writable (.chars cs) = .error (.problem (.notWritable f.spec d f.charWidth)) := by
  have hfault : f.charWidth.fault? cs ≠ none := by
    rw [Ne, Width.fault?_eq_none_iff]
    intro hholds
    have hholds := hholds c hc
    rw [hwidth] at hholds
    exact hholds.elim (· hsurrogate) hescape
  obtain ⟨fault, hfault⟩ := Option.ne_none_iff_exists'.1 hfault
  refine ⟨fault.character, ?_⟩
  rw [writable, writableText, hfault]
  rfl

/-- Where a text with a surrogate that is no escape would be written to narrow text, the conversion
fails and tells the place of its specifier, whether it refuses the argument or the text. -/
theorem render_eq_error_of_writes (hwidth : f.charWidth = .narrow) (h : f.spec.Writes a cs)
    (hc : c ∈ cs) (hsurrogate : c.IsSurrogate) (hescape : ¬Utf8.IsEscape c) :
    ∃ p : Problem, f.render a = .error (.problem p) ∧ p.category = .kindMismatch ∧
      p.offset = f.spec.offset := by
  obtain ⟨d, hwritable⟩ := writable_eq_error hwidth hc hsurrogate hescape
  rcases Argument.check_of_writes h hc hsurrogate with hcheck | ⟨q, hcheck⟩
  · cases h with
    | text hkind h =>
      refine ⟨.notWritable f.spec d f.charWidth, ?_, rfl, rfl⟩
      simp only [render, hkind, string, hcheck, h, hwritable, Bind.bind, Except.bind]
    | character hkind hfamily h =>
      refine ⟨.notWritable f.spec d f.charWidth, ?_, rfl, rfl⟩
      simp only [render, hkind, char, hcheck, charPiece, if_neg hfamily, Piece.ofValue, h,
        hwritable, Bind.bind, Except.bind, Pure.pure, Except.pure]
    | @number n c' hkind hfamily hn h =>
      obtain rfl := List.mem_singleton.1 hc
      refine ⟨.notCharacter f.spec c.val, ?_, rfl, rfl⟩
      have hnumbered : numberedChar f.spec n = .error (.problem (.notCharacter f.spec c.val)) := by
        simp only [numberedChar, ← h]
        rw [CodePoint.ofNat?_eq_some_iff.2 rfl]
        exact if_pos hsurrogate
      simp only [render, hkind, char, hcheck, charPiece, if_pos hfamily, hn, hnumbered, Bind.bind,
        Except.bind]
  · refine ⟨.cannotFormat f.spec a.description q, ?_, rfl, rfl⟩
    cases h with
    | text hkind =>
      simp only [render, hkind, string, hcheck]
      rfl
    | character hkind | number hkind =>
      simp only [render, hkind, char, hcheck]
      rfl

end Field

end UnitText
