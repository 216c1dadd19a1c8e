import UnitText.Argument.Text
import UnitText.Proofs.Numeral.Figures

/-!
# Durations written out

A duration is written with its parts: a sign, days, hours, minutes, seconds and a fraction. Days and
the fraction are left out if they are zero. The parts are read again from the text, and they
determine the duration.

## Main definitions

- `DurationText` — the parts of a duration as they are written
- `DurationText.Valid` — the digits of the parts are laid out as those of a duration
- `DurationText.Shows` — the parts are those of a duration
- `DurationText.read` — the parts that a text was made of

## Main statements

- `DurationText.Valid.read_chars` — parts that are written out are read again
- `Duration.exists_parts` — the text of a duration has its parts
- `Value.defaultText_duration` — the default text of a duration determines it
-/

namespace UnitText

/-- The parts of a duration as they are written, the numbers by their digits. -/
structure DurationText where
  negative : Bool
  days : Option (List ℕ)
  hours : List ℕ
  minutes : List ℕ
  seconds : List ℕ
  fraction : Option (List ℕ)
deriving DecidableEq

namespace DurationText

variable {t : DurationText} {d : Duration}

/-- The days written out, with a point behind them, or nothing. -/
def dayChars (days : Option (List ℕ)) : Chars :=
  days.elim [] fun ds => Chars.ofDigits ds ++ [CodePoint.ofChar '.']

/-- The fraction written out, behind a point, or nothing. -/
def fractionChars (fraction : Option (List ℕ)) : Chars :=
  fraction.elim [] fun ds => CodePoint.ofChar '.' :: Chars.ofDigits ds

/-- The parts written out: `[-][d.]hh:mm:ss[.fffffff]`. -/
def chars (t : DurationText) : Chars :=
  (if t.negative then [CodePoint.ofChar '-'] else []) ++
    (dayChars t.days ++
      (Chars.ofDigits t.hours ++ CodePoint.ofChar ':' ::
        (Chars.ofDigits t.minutes ++ CodePoint.ofChar ':' ::
          (Chars.ofDigits t.seconds ++ fractionChars t.fraction))))

/-- The length of time without its sign, in ticks of a tenth of a microsecond. -/
def size (t : DurationText) : ℕ :=
  let days := digitsValue 10 (t.days.getD [])
  let hours := days * 24 + digitsValue 10 t.hours
  let minutes := hours * 60 + digitsValue 10 t.minutes
  let seconds := minutes * 60 + digitsValue 10 t.seconds
  seconds * 10 ^ 7 + digitsValue 10 (t.fraction.getD [])

/-- The length of time in ticks. -/
def ticks (t : DurationText) : ℤ := if t.negative then -t.size else t.size

/-- A number of so many decimal digits, and below a limit. -/
structure IsField (width limit : ℕ) (ds : List ℕ) : Prop where
  length : ds.length = width
  lt : ∀ d ∈ ds, d < 10
  value_lt : digitsValue 10 ds < limit

/-- The days have no zeros before them, the fraction has seven digits and all other parts two. -/
structure Valid (t : DurationText) : Prop where
  days : ∀ ds ∈ t.days, DigitsOf 10 (digitsValue 10 ds) ds
  hours : IsField 2 24 t.hours
  minutes : IsField 2 60 t.minutes
  seconds : IsField 2 60 t.seconds
  fraction : ∀ ds ∈ t.fraction, IsField 7 (10 ^ 7) ds

/-- The parts are those of the duration, and there are no more than it needs. -/
structure Shows (t : DurationText) (d : Duration) : Prop where
  ticks : t.ticks = 10 * d.microseconds
  negative : t.negative ↔ d.microseconds < 0
  days : t.days.isSome ↔ 86400000000 ≤ |d.microseconds|
  fraction : t.fraction.isSome ↔ ¬1000000 ∣ d.microseconds

/-- Parts are those of only one duration. -/
theorem Shows.unique {d' : Duration} (h : t.Shows d) (h' : t.Shows d') : d = d' := by
  have hticks : 10 * d.microseconds = 10 * d'.microseconds := h.ticks.symm.trans h'.ticks
  have heq : d.microseconds = d'.microseconds := by omega
  cases d
  cases d'
  exact congrArg Duration.mk heq

/-! ## Reading -/

/-- The days at the beginning of a text, which have a point behind them, and the text behind it. -/
def readDays (cs : Chars) : Option (List ℕ) × Chars :=
  let (ds, rest) := digitRun cs
  if rest.head? = some (CodePoint.ofChar '.') then (some ds, rest.tail) else (none, cs)

/-- The digits behind a point, if there is anything. -/
def readFraction (cs : Chars) : Option (List ℕ) :=
  if cs = [] then none else some (digitRun cs.tail).1

/-- The parts that a text was made of. Nothing is checked. -/
def read (cs : Chars) : DurationText :=
  let negative := cs.head? = some (CodePoint.ofChar '-')
  let (days, rest) := readDays (if negative then cs.tail else cs)
  let (hours, rest) := digitRun rest
  let (minutes, rest) := digitRun rest.tail
  let (seconds, rest) := digitRun rest.tail
  { negative, days, hours, minutes, seconds, fraction := readFraction rest }

/-- Digits are read up to a colon. -/
theorem digitRun_colon {ds : List ℕ} (h : ∀ d ∈ ds, d < 10) (rest : Chars) :
    digitRun (Chars.ofDigits ds ++ CodePoint.ofChar ':' :: rest) =
      (ds, CodePoint.ofChar ':' :: rest) := by
  refine digitRun_ofDigits h ?_
  rintro c ⟨⟩
  decide

theorem readDays_dayChars {days : Option (List ℕ)} (hdays : ∀ ds ∈ days, ∀ d ∈ ds, d < 10)
    {hours : List ℕ} (hhours : ∀ d ∈ hours, d < 10) (rest : Chars) :
    readDays (dayChars days ++ (Chars.ofDigits hours ++ CodePoint.ofChar ':' :: rest)) =
      (days, Chars.ofDigits hours ++ CodePoint.ofChar ':' :: rest) := by
  cases days with
  | none =>
    have hcolon : CodePoint.ofChar ':' ≠ CodePoint.ofChar '.' := by decide
    simp only [dayChars, Option.elim_none, List.nil_append, readDays, digitRun_colon hhours]
    exact if_neg fun h => hcolon (Option.some.inj h)
  | some ds =>
    have hrun : ∀ cs, digitRun (Chars.ofDigits ds ++ CodePoint.ofChar '.' :: cs) =
        (ds, CodePoint.ofChar '.' :: cs) := by
      intro cs
      refine digitRun_ofDigits (hdays ds rfl) ?_
      rintro c ⟨⟩
      decide
    simp only [dayChars, Option.elim_some, List.append_assoc, List.cons_append, List.nil_append,
      readDays, hrun]
    exact if_pos rfl

/-- Digits before a fraction end at its point, or with the text. -/
theorem digitRun_fractionChars {ds : List ℕ} (h : ∀ d ∈ ds, d < 10) (fraction : Option (List ℕ)) :
    digitRun (Chars.ofDigits ds ++ fractionChars fraction) = (ds, fractionChars fraction) := by
  refine digitRun_ofDigits h ?_
  cases fraction with
  | none => nofun
  | some ds =>
    rintro c ⟨⟩
    decide

theorem readFraction_fractionChars {fraction : Option (List ℕ)}
    (h : ∀ ds ∈ fraction, ∀ d ∈ ds, d < 10) : readFraction (fractionChars fraction) = fraction := by
  cases fraction with
  | none => rfl
  | some ds =>
    have hrun : digitRun (Chars.ofDigits ds ++ []) = (ds, []) := digitRun_ofDigits (h ds rfl) nofun
    rw [List.append_nil] at hrun
    simp only [fractionChars, Option.elim_some, readFraction, List.tail_cons, hrun]
    exact if_neg (List.cons_ne_nil _ _)

/-- What follows the sign starts with a digit. -/
theorem Valid.head?_ne (h : t.Valid) (rest : Chars) :
    (dayChars t.days ++ (Chars.ofDigits t.hours ++ rest)).head? ≠ some (CodePoint.ofChar '-') := by
  have hdigits : ∀ {ds : List ℕ}, ds ≠ [] → (∀ d ∈ ds, d < 10) → ∀ rest : Chars,
      (Chars.ofDigits ds ++ rest).head? ≠ some (CodePoint.ofChar '-') := by
    intro ds hne hlt rest hhead
    obtain ⟨d, ds, rfl⟩ := List.exists_cons_of_ne_nil hne
    have hdigit : ∀ d < 10, CodePoint.ofChar (Nat.digitChar d) ≠ CodePoint.ofChar '-' := by decide
    exact hdigit d (hlt d List.mem_cons_self) (Option.some.inj hhead)
  cases hdays : t.days with
  | none =>
    refine hdigits ?_ h.hours.lt rest
    exact List.ne_nil_of_length_pos (by rw [h.hours.length]; decide)
  | some ds =>
    rw [dayChars, Option.elim_some, List.append_assoc]
    exact hdigits (h.days ds hdays).ne_nil (h.days ds hdays).lt _

/-- Parts that are written out are read again. -/
theorem Valid.read_chars (h : t.Valid) : read t.chars = t := by
  have hhead := fun rest => h.head?_ne (CodePoint.ofChar ':' :: rest)
  have hdays := fun rest => readDays_dayChars (fun ds hds => (h.days ds hds).lt) h.hours.lt rest
  have hhours := digitRun_colon h.hours.lt
  have hminutes := digitRun_colon h.minutes.lt
  have hseconds := digitRun_fractionChars h.seconds.lt t.fraction
  have hfraction := readFraction_fractionChars fun ds hds => (h.fraction ds hds).lt
  clear h
  obtain ⟨negative, days, hours, minutes, seconds, fraction⟩ := t
  simp only at hhead hdays hhours hminutes hseconds hfraction
  cases negative with
  | false =>
    simp only [read, chars, Bool.false_eq_true, ↓reduceIte, List.nil_append, hhead, hdays, hhours,
      hminutes, List.tail_cons, hseconds, hfraction, decide_false]
  | true =>
    simp only [read, chars, ↓reduceIte, List.cons_append, List.nil_append, List.head?_cons, hdays,
      hhours, hminutes, List.tail_cons, hseconds, hfraction, decide_true]

end DurationText

/-! ## Writing -/

namespace Duration

/-- A number that is less than a limit is padded to the width of its field. -/
theorem exists_field (width : ℕ) {limit n : ℕ} (hn : n < limit) (hwidth : 0 < width)
    (hlimit : limit ≤ 10 ^ width) : ∃ ds : List ℕ, DurationText.IsField width limit ds ∧
      Chars.ofString (paddedText width n) = Chars.ofDigits ds ∧ digitsValue 10 ds = n := by
  obtain ⟨ds, hds, hlt, hvalue, hlength⟩ :=
    exists_zeroPadded_radixDigits (by decide : 1 < 10) width n
  rw [max_length_radixDigits (by decide) hwidth (hn.trans_le hlimit)] at hlength
  refine ⟨ds, ⟨hlength, hlt, hvalue ▸ hn⟩, ?_, hvalue⟩
  rw [paddedText, Chars.ofString, String.toList_ofList, decimalDigits_eq]
  exact congrArg (List.map CodePoint.ofChar) hds

/-- Days are written without zeros before them. -/
theorem exists_days (n : ℕ) : ∃ ds : List ℕ, DigitsOf 10 n ds ∧
    Chars.ofString n.repr = Chars.ofDigits ds := by
  obtain ⟨ds, hds, hdigits⟩ := exists_radixDigits (by decide : 1 < 10) n
  exact ⟨ds, hds, congrArg (List.map CodePoint.ofChar) ((decimalDigits_eq n).trans hdigits)⟩

theorem ofString_sign (T : ℤ) : Chars.ofString (if T < 0 then "-" else "") =
    if decide (T < 0) then [CodePoint.ofChar '-'] else [] := by
  simp only [decide_eq_true_eq]
  split <;> rfl

/-- The days, or nothing if there are none. -/
theorem ofString_days {n : ℕ} {s : String} {ds : List ℕ}
    (h : Chars.ofString s = Chars.ofDigits ds) :
    Chars.ofString (if n = 0 then "" else s ++ ".") =
      DurationText.dayChars (if n = 0 then none else some ds) := by
  split
  · rfl
  · rw [Chars.ofString_append, h]
    rfl

/-- The fraction, or nothing if there is none. -/
theorem ofString_fraction {n : ℕ} {s : String} {ds : List ℕ}
    (h : Chars.ofString s = Chars.ofDigits ds) :
    Chars.ofString (if n = 0 then "" else "." ++ s) =
      DurationText.fractionChars (if n = 0 then none else some ds) := by
  split
  · rfl
  · rw [Chars.ofString_append, h]
    rfl

/-- A part that is left out is zero. -/
theorem digitsValue_getD {n : ℕ} {ds : List ℕ} (h : digitsValue 10 ds = n) :
    digitsValue 10 ((if n = 0 then none else some ds).getD []) = n := by
  split
  · next hzero => exact hzero.symm
  · exact h

/-- The text of a duration has its parts. -/
theorem exists_parts (d : Duration) :
    ∃ t : DurationText, t.Valid ∧ t.Shows d ∧ Chars.ofString d.text = t.chars := by
  obtain ⟨T⟩ := d
  generalize htotal : T.natAbs = total
  obtain ⟨hs, hhours, hhoursText, hhoursValue⟩ := exists_field 2
    (Nat.mod_lt (total / 1000000 / 60 / 60) (by decide : 24 > 0)) (by decide) (by decide)
  obtain ⟨ms, hminutes, hminutesText, hminutesValue⟩ := exists_field 2
    (Nat.mod_lt (total / 1000000 / 60) (by decide : 60 > 0)) (by decide) (by decide)
  obtain ⟨ss, hseconds, hsecondsText, hsecondsValue⟩ := exists_field 2
    (Nat.mod_lt (total / 1000000) (by decide : 60 > 0)) (by decide) (by decide)
  obtain ⟨fs, hfraction, hfractionText, hfractionValue⟩ := exists_field 7
    (by omega : total % 1000000 * 10 < 10 ^ 7) (by decide) le_rfl
  obtain ⟨ds, hdays, hdaysText⟩ := exists_days (total / 1000000 / 60 / 60 / 24)
  let t : DurationText :=
    { negative := decide (T < 0)
      days := if total / 1000000 / 60 / 60 / 24 = 0 then none else some ds
      hours := hs
      minutes := ms
      seconds := ss
      fraction := if total % 1000000 * 10 = 0 then none else some fs }
  have hsize : t.size = 10 * total := by
    simp only [t, DurationText.size, digitsValue_getD hdays.value, digitsValue_getD hfractionValue,
      hhoursValue, hminutesValue, hsecondsValue]
    omega
  refine ⟨t, ⟨?_, hhours, hminutes, hseconds, ?_⟩, ⟨?_, ?_, ?_, ?_⟩, ?_⟩
  · intro es hes
    obtain ⟨-, rfl⟩ : _ ∧ ds = es := by simpa [t] using hes
    exact hdays.value.symm ▸ hdays
  · intro es hes
    obtain ⟨-, rfl⟩ : _ ∧ fs = es := by simpa [t] using hes
    exact hfraction
  · rw [DurationText.ticks, hsize]
    simp only [t, decide_eq_true_eq]
    split
    · omega
    · omega
  · simp [t]
  · have hdays : t.days.isSome ↔ total / 1000000 / 60 / 60 / 24 ≠ 0 := by simp [t]
    rw [hdays, Int.abs_eq_natAbs, htotal]
    omega
  · have hfraction : t.fraction.isSome ↔ total % 1000000 * 10 ≠ 0 := by simp [t]
    rw [hfraction]
    change _ ↔ ¬1000000 ∣ T
    omega
  · have hcolon : Chars.ofString ":" = [CodePoint.ofChar ':'] := rfl
    simp only [Duration.text, htotal, Chars.ofString_append, ofString_sign, ofString_days hdaysText,
      hhoursText, hminutesText, hsecondsText, ofString_fraction hfractionText, hcolon,
      DurationText.chars, List.append_assoc, List.cons_append, List.nil_append]
    rfl

end Duration

/-- **The default text of a duration determines it.** It is laid out as `[-][d.]hh:mm:ss[.fffffff]`,
and together its parts are the whole duration. -/
theorem Value.defaultText_duration (d : Duration) : ∃ t : DurationText, t.Valid ∧ t.Shows d ∧
    (Value.duration d).defaultText = .ok (.chars t.chars) ∧
    ∀ d' : Duration, (Value.duration d').defaultText = (Value.duration d).defaultText → d' = d := by
  have hdefault : ∀ d : Duration,
      (Value.duration d).defaultText = .ok (.chars (Chars.ofString d.text)) := fun _ => rfl
  obtain ⟨t, hvalid, hshows, htext⟩ := d.exists_parts
  refine ⟨t, hvalid, hshows, by rw [hdefault, htext], ?_⟩
  intro d' hd'
  obtain ⟨t', hvalid', hshows', htext'⟩ := d'.exists_parts
  have hchars : t'.chars = t.chars := by
    rw [hdefault, hdefault, htext, htext'] at hd'
    exact Piece.chars.inj (Except.ok.inj hd')
  have hparts : t' = t := by rw [← hvalid'.read_chars, hchars, hvalid.read_chars]
  exact hshows'.unique (hparts ▸ hshows)

example : (Value.duration ⟨-90061500000⟩).defaultText =
    .ok (.chars (Chars.ofString "-1.01:01:01.5000000")) := by decide +kernel

end UnitText
