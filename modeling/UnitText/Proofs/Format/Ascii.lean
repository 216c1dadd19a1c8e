import UnitText.Format.Text
import UnitText.Proofs.Encoding.Ascii
import UnitText.Proofs.Format.Start

/-!
# Numbers in every width

All that conversions write of numbers is ASCII: digits, signs, marks, points, exponents and words.
So they fill their fields alike in every width, however much output is before them.

## Main definitions

- `IsAsciiText` — characters of ASCII, as a number is written with
- `Field.atWidth` — the field of a template of another width, behind other output
- `SameAscii` — two computations give the same ASCII text, or fail alike

## Main statements

- `Figures.isAsciiText_chars`, `Double.isAsciiText_hexFigures` — figures are ASCII
- `Field.same_truth`, `Field.same_storedInteger` — integers in a field of another width
- `Field.same_double`, `Field.same_fixedPoint` — floating-point and fixed-point numbers
-/

namespace UnitText

/-! ## Figures -/

/-- Characters of ASCII. -/
def IsAsciiText (cs : List Char) : Prop := ∀ c ∈ cs, c.toNat < 0x80

instance (cs : List Char) : Decidable (IsAsciiText cs) :=
  List.decidableBAll _ cs

namespace IsAsciiText

variable {cs ds : List Char}

theorem nil : IsAsciiText [] := List.forall_mem_nil _

theorem cons {c : Char} (hc : c.toNat < 0x80) (h : IsAsciiText cs) : IsAsciiText (c :: cs) :=
  List.forall_mem_cons.2 ⟨hc, h⟩

theorem append (hcs : IsAsciiText cs) (hds : IsAsciiText ds) : IsAsciiText (cs ++ ds) :=
  List.forall_mem_append.2 ⟨hcs, hds⟩

/-- Some of the characters, in any order. -/
theorem of_subset (h : ds ⊆ cs) (hcs : IsAsciiText cs) : IsAsciiText ds := fun c hc => hcs c (h hc)

theorem replicate {c : Char} (hc : c.toNat < 0x80) (n : Nat) :
    IsAsciiText (List.replicate n c) := by
  intro d hd
  rwa [List.eq_of_mem_replicate hd]

theorem zeroPadded (h : IsAsciiText cs) (n : Nat) : IsAsciiText (zeroPadded n cs) :=
  append (replicate (by decide) _) h

theorem toUpper (h : IsAsciiText cs) : IsAsciiText (cs.map Char.toUpper) := by
  intro c hc
  obtain ⟨d, hd, rfl⟩ := List.mem_map.1 hc
  -- capitals are numbered below the letters that they are the capitals of
  have hupper : ∀ n < 0x80, (Char.ofNat n).toUpper.toNat < 0x80 := by decide +kernel
  have hlt := hupper d.toNat (h d hd)
  rwa [Char.ofNat_toNat] at hlt

/-- The zeros that end a text are left out. -/
theorem trimmed (h : IsAsciiText cs) :
    IsAsciiText (cs.reverse.dropWhile (· == '0')).reverse := by
  refine of_subset (fun c hc => ?_) h
  have hdrop := List.mem_reverse.1 hc
  exact List.mem_reverse.1 ((List.dropWhile_suffix _).subset hdrop)

theorem points (h : IsAsciiText cs) : Chars.IsAscii (Field.points cs) := by
  intro c hc
  obtain ⟨d, hd, rfl⟩ := List.mem_map.1 hc
  exact h d hd

end IsAsciiText

theorem isAsciiText_radixDigits {base : Nat} (hbase : 1 < base ∧ base ≤ 16) (n : Nat) :
    IsAsciiText (radixDigits base n) := by
  have hdigit : ∀ d < 16, d.digitChar.toNat < 0x80 := by decide
  obtain ⟨ds, hds, hdigits⟩ := exists_radixDigits hbase.1 n
  rw [hdigits]
  intro c hc
  obtain ⟨d, hd, rfl⟩ := List.mem_map.1 hc
  exact hdigit d (Nat.lt_of_lt_of_le (hds.lt d hd) hbase.2)

theorem isAsciiText_decimalDigits (n : Nat) : IsAsciiText (decimalDigits n) := by
  rw [decimalDigits_eq]
  exact isAsciiText_radixDigits (by decide) n

theorem Kind.isAsciiText_digits (k : Kind) (n : Nat) : IsAsciiText (k.digits n) := by
  rw [digits]
  split
  · exact (isAsciiText_radixDigits (by decide) n).toUpper
  · exact isAsciiText_radixDigits k.radix_bounds n

/-- The layout of a magnitude by the letter of an integer conversion. -/
theorem Value.isAsciiText_layout {k : Kind} (hk : k.isInteger) {v m : Value} {s : String}
    (hm : v.magnitude = .ok m) (hs : m.layout k.layoutLetter = .ok s) : IsAsciiText s.toList := by
  obtain ⟨n, -, hlayout⟩ := Value.layout_of_magnitude hm (Kind.layoutLetter_ne hk) hs
  obtain ⟨own, hlist, hown⟩ := Integer.toList_of_layout hk hlayout
  rw [hlist]
  refine .append ?_ (k.isAsciiText_digits _)
  rcases hown with rfl | ⟨rfl, -⟩
  · exact .nil
  · decide

namespace Figures

/-- The parts of figures that are written with digits. -/
structure IsAscii (f : Figures) : Prop where
  whole : IsAsciiText f.whole
  fraction : IsAsciiText f.fraction

theorem isAscii_ofUnits (places n : Nat) : (ofUnits places n).IsAscii := by
  have hdigits := (isAsciiText_decimalDigits n).zeroPadded (places + 1)
  exact ⟨hdigits.of_subset (List.take_subset _ _), hdigits.of_subset (List.drop_subset _ _)⟩

theorem isAscii_scientific (c : Nat) (e : Int) (places : Nat) (zeroExponent : Int) :
    (scientific c e places zeroExponent).IsAscii := by
  unfold scientific
  split
  · exact ⟨(isAscii_ofUnits places 0).whole, (isAscii_ofUnits places 0).fraction⟩
  · exact ⟨(isAscii_ofUnits places _).whole, (isAscii_ofUnits places _).fraction⟩

theorem isAscii_general (c : Nat) (e : Int) (precision : Nat) (keepZeros : Bool) :
    (general c e precision keepZeros).IsAscii := by
  have hfigures : ∀ {p : Prop} [Decidable p] {places places' : Nat},
      (if p then fixed c e places else scientific c e places' 0).IsAscii := by
    intro p _ places places'
    split
    · exact isAscii_ofUnits _ _
    · exact isAscii_scientific _ _ _ _
  simp only [general]
  split
  · exact hfigures
  · exact ⟨hfigures.whole, hfigures.fraction.trimmed⟩

theorem isAsciiText_exponentChars (x : Int) : IsAsciiText (exponentChars x) := by
  refine .cons (by decide) (.cons ?_ ((isAsciiText_decimalDigits _).zeroPadded 2))
  split <;> decide

theorem IsAscii.chars {f : Figures} (h : f.IsAscii) (keepPoint : Bool) :
    IsAsciiText (f.chars keepPoint) := by
  unfold Figures.chars
  refine .append (.append h.whole ?_) ?_
  · split
    · exact .nil
    · exact .cons (by decide) h.fraction
  · split
    · exact .nil
    · exact isAsciiText_exponentChars _

end Figures

theorem Field.isAscii_figures (form : FloatForm) (c : Nat) (e : Int) (p : Nat) (zeroExponent : Int)
    (alternate : Bool) : (figures form c e p zeroExponent alternate).IsAscii := by
  cases form with
  | exponent => exact Figures.isAscii_scientific _ _ _ _
  | general => exact Figures.isAscii_general _ _ _ _
  | fixed | hex => exact Figures.isAscii_ofUnits _ _

namespace Double

theorem isAsciiText_hexDigits (x : Double) (places : Option Nat) :
    IsAsciiText (x.hexDigits places).1 ∧ IsAsciiText (x.hexDigits places).2 := by
  have hdigits : ∀ n, IsAsciiText (radixDigits 16 n) := isAsciiText_radixDigits (by decide)
  cases places with
  | none => exact ⟨hdigits _, ((hdigits _).zeroPadded _).trimmed⟩
  | some p =>
    simp only [hexDigits]
    split
    · refine ⟨hdigits _, ?_⟩
      split
      · exact .nil
      · exact (hdigits _).zeroPadded _
    · exact ⟨hdigits _, .append ((hdigits _).zeroPadded _) (.replicate (by decide) _)⟩

theorem isAsciiText_hexFigures (x : Double) (places : Option Nat) (keepPoint : Bool) :
    IsAsciiText (x.hexFigures places keepPoint) := by
  obtain ⟨hwhole, hfraction⟩ := x.isAsciiText_hexDigits places
  simp only [hexFigures]
  refine .append (.append hwhole ?_) ?_
  · generalize (x.hexDigits places).2 = fraction at hfraction
    split
    · exact .nil
    · exact .cons (by decide) hfraction
  · refine .cons (by decide) (.cons ?_ (isAsciiText_decimalDigits _))
    split <;> decide

end Double

/-! ## Fields of another width -/

/-- The field of a template of another width, behind another number of units. -/
def Field.atWidth (f : Field) (w : Width) (written : Nat) : Field :=
  { f with charWidth := w, written }

/-- Two computations give the same text, which is ASCII, or fail for the same reason. -/
structure SameAscii (x y : Except Failure Chars) : Prop where
  eq : y = x
  isAscii : ∀ cs, x = .ok cs → cs.IsAscii

namespace SameAscii

theorem ok {cs : Chars} (h : cs.IsAscii) : SameAscii (.ok cs) (.ok cs) where
  eq := rfl
  isAscii := by
    rintro _ ⟨⟩
    exact h

theorem error (e : Failure) : SameAscii (.error e) (.error e) where
  eq := rfl
  isAscii := by
    rintro _ ⟨⟩

theorem bind {α : Type} {x : Except Failure α} {g h : α → Except Failure Chars}
    (hgh : ∀ a, x = .ok a → SameAscii (g a) (h a)) : SameAscii (x >>= g) (x >>= h) := by
  cases x with
  | ok a => exact hgh a rfl
  | error e => exact .error e

end SameAscii

namespace Field

variable (f : Field) (w : Width) (written : Nat)

/-! ### Filling -/

theorem isAscii_of_filling {c : Char} (hc : c.toNat < 0x80) {n : Nat} {cs : Chars}
    (h : filling c n = .ok cs) : cs.IsAscii := by
  rw [filling] at h
  split at h
  · cases h
  · obtain rfl := Except.ok.inj h
    intro d hd
    rw [List.eq_of_mem_replicate hd]
    exact hc

theorem same_padText {cs : Chars} (hcs : cs.IsAscii) :
    SameAscii (f.padText cs) ((f.atWidth w written).padText cs) := by
  have hmissing : (f.atWidth w written).missing cs = f.missing cs := by
    simp only [missing, atWidth, Width.length_of_isAscii hcs]
  rw [padText, padText, hmissing]
  refine .bind fun fill hfill => .ok ?_
  have hfill := isAscii_of_filling (by decide) hfill
  split
  · exact Chars.isAscii_append.2 ⟨hcs, hfill⟩
  · exact Chars.isAscii_append.2 ⟨hfill, hcs⟩

theorem same_percent : SameAscii f.percent (f.atWidth w written).percent :=
  f.same_padText w written (by decide)

theorem same_padNumber {start digits : Chars} (hstart : start.IsAscii) (hdigits : digits.IsAscii)
    (zeros : Bool) :
    SameAscii (f.padNumber start digits zeros)
      ((f.atWidth w written).padNumber start digits zeros) := by
  have hboth : Chars.IsAscii (start ++ digits) := Chars.isAscii_append.2 ⟨hstart, hdigits⟩
  have hmissing :
      (f.atWidth w written).missing (start ++ digits) = f.missing (start ++ digits) := by
    simp only [missing, atWidth, Width.length_of_isAscii hboth]
  rw [padNumber, padNumber, hmissing]
  refine .bind fun fill hfill => .ok ?_
  have hfill : fill.IsAscii := by
    refine isAscii_of_filling ?_ hfill
    split <;> decide
  split
  · exact Chars.isAscii_append.2 ⟨hboth, hfill⟩
  · split
    · exact Chars.isAscii_append.2 ⟨Chars.isAscii_append.2 ⟨hstart, hfill⟩, hdigits⟩
    · exact Chars.isAscii_append.2 ⟨Chars.isAscii_append.2 ⟨hfill, hstart⟩, hdigits⟩

theorem isAscii_signChars (negative signed : Bool) : (f.signChars negative signed).IsAscii := by
  rw [signChars]
  split
  · decide
  · split
    · decide
    · split
      · decide
      · split <;> decide

/-! ### Integers -/

theorem isAsciiText_of_precise {isZero : Bool} {digits ds : List Char}
    (hdigits : IsAsciiText digits) (h : f.precise isZero digits = .ok ds) : IsAsciiText ds := by
  rw [precise] at h
  split at h
  · obtain rfl := Except.ok.inj h
    exact hdigits
  · split at h
    · cases h
    · obtain rfl := Except.ok.inj h
      refine .zeroPadded ?_ _
      split
      · exact .nil
      · exact hdigits

theorem isAsciiText_baseMark (isZero : Bool) : IsAsciiText (f.baseMark isZero) := by
  have hletter : ∀ k ∈ Kind.all, k.letter.toNat < 0x80 := by decide
  rw [baseMark]
  split
  · exact .cons (by decide) (.cons (hletter _ f.spec.kind.mem_all) .nil)
  · exact .nil

theorem isAsciiText_octalMarked {digits : List Char} (h : IsAsciiText digits) :
    IsAsciiText (f.octalMarked digits) := by
  rw [octalMarked]
  split
  · exact .cons (by decide) h
  · exact h

theorem same_signedDigits (negative isZero : Bool) {digits : List Char}
    (hdigits : IsAsciiText digits) :
    SameAscii (f.signedDigits negative isZero digits)
      ((f.atWidth w written).signedDigits negative isZero digits) := by
  refine .bind fun ds hds => f.same_padNumber w written ?_ ?_ _
  · exact Chars.isAscii_append.2 ⟨f.isAscii_signChars _ _, (f.isAsciiText_baseMark _).points⟩
  · exact (f.isAsciiText_octalMarked (f.isAsciiText_of_precise hdigits hds)).points

theorem same_storedInteger (n : Int) :
    SameAscii (f.storedInteger n) ((f.atWidth w written).storedInteger n) :=
  f.same_signedDigits w written _ _ (f.spec.kind.isAsciiText_digits _)

theorem same_booleanWord (b : Bool) :
    SameAscii (f.booleanWord b) ((f.atWidth w written).booleanWord b) := by
  have hword : Chars.IsAscii (Chars.ofString (booleanText b)) := by cases b <;> decide
  refine f.same_padText w written ?_
  split
  · exact hword
  · exact hword.take _

theorem same_truth (hkind : f.spec.kind.isInteger) (form : IntegerForm) (v : Value) :
    SameAscii (f.truth form v) ((f.atWidth w written).truth form v) := by
  unfold truth
  split
  · split
    · exact f.same_booleanWord w written _
    · exact f.same_storedInteger w written _
  · refine .bind fun magnitude hmagnitude => .bind fun digits hdigits => .bind fun isZero _ => ?_
    exact f.same_signedDigits w written _ _ (Value.isAsciiText_layout hkind hmagnitude hdigits)

/-! ### Floating-point numbers -/

theorem isAscii_cased {cs : List Char} (h : IsAsciiText cs) : (f.cased cs).IsAscii := by
  refine IsAsciiText.points ?_
  split
  · exact h.toUpper
  · exact h

theorem same_padFinite (negative : Bool) {mark digits : List Char} (hmark : IsAsciiText mark)
    (hdigits : IsAsciiText digits) :
    SameAscii (f.padFinite negative mark digits)
      ((f.atWidth w written).padFinite negative mark digits) :=
  f.same_padNumber w written
    (Chars.isAscii_append.2 ⟨f.isAscii_signChars _ _, f.isAscii_cased hmark⟩)
    (f.isAscii_cased hdigits) _

theorem same_nonFinite (x : Double) :
    SameAscii (f.nonFinite x) ((f.atWidth w written).nonFinite x) := by
  refine f.same_padNumber w written (f.isAscii_signChars _ _) (f.isAscii_cased ?_) _
  split <;> decide

theorem same_finiteDouble (form : FloatForm) (negative : Bool) (size : Double) :
    SameAscii (f.finiteDouble form negative size)
      ((f.atWidth w written).finiteDouble form negative size) := by
  refine .bind fun p _ => f.same_padFinite w written negative .nil (.append ?_ ?_)
  · split <;> decide
  · exact (isAscii_figures _ _ _ _ _ _).chars _

theorem same_double (form : FloatForm) (x : Double) :
    SameAscii (f.double form x) ((f.atWidth w written).double form x) := by
  unfold double
  split
  · exact f.same_nonFinite w written x
  · split
    · show SameAscii (f.hexDouble x) ((f.atWidth w written).hexDouble x)
      unfold hexDouble
      show SameAscii _ (if f.precision.any (runLimit ≤ ·) then _ else _)
      split
      · exact .error _
      · exact f.same_padFinite w written _ (by decide) (x.isAsciiText_hexFigures _ _)
    · exact f.same_finiteDouble w written _ _ _

theorem same_finiteDecimal (form : FloatForm) (negative : Bool) (c : Nat) (e : Int) :
    SameAscii (f.finiteDecimal form negative c e)
      ((f.atWidth w written).finiteDecimal form negative c e) :=
  .bind fun _ _ => f.same_padFinite w written negative .nil ((isAscii_figures _ _ _ _ _ _).chars _)

theorem same_decimal (form : FloatForm) (d : Decimal) :
    SameAscii (f.decimal form d) ((f.atWidth w written).decimal form d) := by
  unfold decimal
  split
  · exact .bind fun x _ => f.same_double w written _ x
  · refine .bind fun size _ => ?_
    split
    · exact f.same_finiteDecimal w written _ _ _ _
    · exact .bind fun x _ => f.same_double w written _ x
  · exact .bind fun x _ => f.same_double w written _ x

theorem same_fixedPoint (form : FloatForm) (v : Value) :
    SameAscii (f.fixedPoint form v) ((f.atWidth w written).fixedPoint form v) := by
  unfold fixedPoint
  split
  · exact .bind fun x _ => f.same_double w written _ x
  · exact f.same_decimal w written _ _
  · refine .bind fun x _ => ?_
    split
    · exact .bind fun _ _ => .bind fun _ _ => f.same_finiteDouble w written _ _ _
    · exact f.same_nonFinite w written x

/-! ### Addresses -/

theorem isAscii_addressText (n : Int) : Chars.IsAscii (Chars.ofString (addressText n)) := by
  unfold addressText
  split
  · decide
  · rw [Chars.ofString_append, Chars.ofString_append]
    refine Chars.isAscii_append.2 ⟨Chars.isAscii_append.2 ⟨by decide, ?_⟩, ?_⟩
    · split <;> decide
    · rw [hexText, Chars.ofString, String.toList_ofList]
      exact ((isAsciiText_radixDigits (by decide) _).zeroPadded _).points

end Field

end UnitText
