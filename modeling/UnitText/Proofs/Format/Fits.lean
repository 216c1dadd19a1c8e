import UnitText.Format.Text
import UnitText.Proofs.Format.Ascii

/-!
# Output fits the template

Whatever a conversion writes, the code units of the template can hold it. Numbers, words and
addresses are ASCII, which every width holds. Texts are looked at before they are cut off and
filled, and neither brings in a character that could not be held.

## Main definitions

- `Width.Fits` — a computation gives characters that text of a width can hold, if it gives any

## Main statements

- `Field.fits_integer`, `Field.fits_float` — numbers fit
- `Field.holds_of_render` — the output of every conversion fits
-/

namespace UnitText

theorem CodePoint.not_isSurrogate_ofChar (c : Char) : ¬(ofChar c).IsSurrogate := by
  intro h
  have hvalid := c.valid
  have hval : c.val.toNat = c.toNat := rfl
  simp only [UInt32.isValidChar, Nat.isValidChar, hval] at hvalid
  simp only [IsSurrogate, val_ofChar] at h
  omega

namespace Width

variable {w : Width}

/-- A computation gives characters that text of a width can hold, if it gives any. -/
def Fits (w : Width) (x : Except Failure Chars) : Prop := ∀ cs, x = .ok cs → ∀ c ∈ cs, w.Holds c

theorem fits_ok {cs : Chars} (h : ∀ c ∈ cs, w.Holds c) : w.Fits (.ok cs) := by
  rintro _ ⟨⟩
  exact h

/-- ASCII text fits every width. -/
theorem fits_of_sameAscii {x y : Except Failure Chars} (h : SameAscii x y) : w.Fits x :=
  fun cs hcs => holds_of_isAscii (h.isAscii cs hcs)

/-- The last step of a computation decides what it gives. -/
theorem Fits.bind {α : Type} {x : Except Failure α} {g : α → Except Failure Chars}
    (h : ∀ a, x = .ok a → w.Fits (g a)) : w.Fits (x >>= g) := by
  intro cs hcs
  obtain ⟨a, ha, hg⟩ := bind_eq_ok.1 hcs
  exact h a ha cs hg

theorem holds_append {cs ds : Chars} (hcs : ∀ c ∈ cs, w.Holds c) (hds : ∀ c ∈ ds, w.Holds c) :
    ∀ c ∈ cs ++ ds, w.Holds c :=
  fun c hc => (List.mem_append.1 hc).elim (hcs c) (hds c)

end Width

namespace Field

variable {f : Field}

/-! ## Filling a field -/

theorem fits_padText {cs : Chars} (hcs : ∀ c ∈ cs, f.charWidth.Holds c) :
    f.charWidth.Fits (f.padText cs) := by
  refine .bind fun fill hfill => Width.fits_ok ?_
  have hfill : ∀ c ∈ fill, f.charWidth.Holds c :=
    Width.holds_of_isAscii (isAscii_of_filling (by decide) hfill)
  split
  · exact Width.holds_append hcs hfill
  · exact Width.holds_append hfill hcs

/-! ## Numbers -/

theorem fits_integer {form : IntegerForm} (hkind : f.spec.kind = .integer form) {a : Argument} :
    f.charWidth.Fits (f.integer form a) := by
  have hinteger : f.spec.kind.isInteger := by rw [hkind]; rfl
  refine .bind fun _ _ => ?_
  split
  · exact Width.fits_of_sameAscii (f.same_truth f.charWidth f.written hinteger form a.value)
  · exact .bind fun n _ => Width.fits_of_sameAscii (f.same_storedInteger f.charWidth f.written _)

theorem fits_float {form : FloatForm} {a : Argument} : f.charWidth.Fits (f.float form a) := by
  refine .bind fun _ _ => ?_
  split
  · exact Width.fits_of_sameAscii (f.same_fixedPoint f.charWidth f.written form a.value)
  · exact .bind fun x _ => Width.fits_of_sameAscii (f.same_double f.charWidth f.written form x)

/-! ## Texts -/

/-- A text that was looked at fits. -/
theorem holds_of_writable {p : Piece} {cs : Chars} (h : f.writable p = .ok (.chars cs)) :
    ∀ c ∈ cs, f.charWidth.Holds c := by
  cases p with
  | value v =>
    obtain ⟨_, _, h⟩ := bind_eq_ok.1 h
    cases h
  | chars ds =>
    obtain ⟨es, hwritable, h⟩ := bind_eq_ok.1 h
    obtain rfl : es = cs := by simpa using pure_eq_ok.1 h
    rw [writableText] at hwritable
    split at hwritable
    · next hfault =>
      obtain rfl := Except.ok.inj hwritable
      exact Width.fault?_eq_none_iff.1 hfault
    · cases hwritable

/-- Characters can be written if the template can hold each of them. -/
theorem writable_chars_iff {cs : Chars} :
    f.writable (.chars cs) = .ok (.chars cs) ↔ ∀ c ∈ cs, f.charWidth.Holds c := by
  refine ⟨holds_of_writable, fun h => ?_⟩
  rw [writable, writableText, Width.fault?_eq_none_iff.2 h]
  rfl

theorem mem_of_truncated {p : Piece} {cs : Chars} (h : f.truncated p = .ok (.chars cs)) :
    ∃ ds, p = .chars ds ∧ ∀ c ∈ cs, c ∈ ds := by
  unfold truncated at h
  split at h
  · obtain rfl := Except.ok.inj h
    exact ⟨cs, rfl, fun _ hc => hc⟩
  · next n ds _ =>
    obtain ⟨es, hes, h⟩ := bind_eq_ok.1 h
    obtain rfl : es = cs := by simpa using pure_eq_ok.1 h
    exact ⟨ds, rfl, fun _ hc => (Width.truncate_eq_ok_iff.1 hes).begins.subset hc⟩
  · obtain ⟨_, _, h⟩ := bind_eq_ok.1 h
    cases h

/-- A field filled by a text was filled with a text. -/
theorem exists_chars_of_padPiece {p : Piece} {cs : Chars} (h : f.padPiece p = .ok (.chars cs)) :
    ∃ ds, p = .chars ds ∧ f.padText ds = .ok cs := by
  cases p with
  | chars ds =>
    obtain ⟨es, hpad, h⟩ := bind_eq_ok.1 h
    obtain rfl : es = cs := by simpa using pure_eq_ok.1 h
    exact ⟨ds, rfl, hpad⟩
  | value v =>
    obtain ⟨n, _, h⟩ := bind_eq_ok.1 h
    simp only at h
    split at h
    · cases h
    · split at h
      · cases h
      · cases h

/-- What fills a field fits if the text does. -/
theorem holds_of_padPiece {p : Piece} {cs : Chars} (h : f.padPiece p = .ok (.chars cs))
    (hp : ∀ ds, p = .chars ds → ∀ c ∈ ds, f.charWidth.Holds c) :
    ∀ c ∈ cs, f.charWidth.Holds c := by
  obtain ⟨ds, rfl, hpad⟩ := exists_chars_of_padPiece h
  exact fits_padText (hp ds rfl) cs hpad

theorem fits_percent : f.charWidth.Fits f.percent :=
  Width.fits_of_sameAscii (f.same_percent f.charWidth f.written)

/-- Whatever a conversion writes fits the template. -/
theorem holds_of_render {a : Argument} {cs : Chars} (h : f.render a = .ok (.chars cs)) :
    ∀ c ∈ cs, f.charWidth.Holds c := by
  -- all conversions but those of texts and counts make a piece of what they write
  have hchars : ∀ {x : Except Failure Chars}, f.charWidth.Fits x →
      (do return Piece.chars (← x)) = .ok (.chars cs) → ∀ c ∈ cs, f.charWidth.Holds c := by
    intro x hx hreturn
    obtain ⟨ds, hds, hreturn⟩ := bind_eq_ok.1 hreturn
    obtain rfl : ds = cs := by simpa using pure_eq_ok.1 hreturn
    exact hx ds hds
  rw [render] at h
  split at h
  · next hkind => exact hchars (fits_integer hkind) h
  · exact hchars fits_float h
  · obtain ⟨_, _, h⟩ := bind_eq_ok.1 h
    obtain ⟨p, _, h⟩ := bind_eq_ok.1 h
    obtain ⟨q, hwritable, h⟩ := bind_eq_ok.1 h
    refine holds_of_padPiece h ?_
    rintro ds rfl
    exact holds_of_writable hwritable
  · obtain ⟨_, _, h⟩ := bind_eq_ok.1 h
    obtain ⟨p, _, h⟩ := bind_eq_ok.1 h
    obtain ⟨q, hwritable, h⟩ := bind_eq_ok.1 h
    obtain ⟨t, htruncated, h⟩ := bind_eq_ok.1 h
    refine holds_of_padPiece h ?_
    rintro ds rfl
    obtain ⟨es, rfl, hmem⟩ := mem_of_truncated htruncated
    exact fun c hc => holds_of_writable hwritable c (hmem c hc)
  · refine hchars ?_ h
    exact .bind fun _ _ => .bind fun n _ =>
      fits_padText (Width.holds_of_isAscii (isAscii_addressText _))
  · obtain ⟨_, _, h⟩ := bind_eq_ok.1 h
    obtain ⟨_, _, h⟩ := bind_eq_ok.1 h
    obtain rfl : [] = cs := by simpa using pure_eq_ok.1 h
    simp
  · exact hchars fits_percent h

end Field

end UnitText
