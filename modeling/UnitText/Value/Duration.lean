import UnitText.Failure

/-!
# Durations

A duration is a number of microseconds, of less than a thousand million days. It is written as days,
hours, minutes and seconds; the fraction of a second is in ticks of a tenth of a microsecond.

## Main definitions

- `Duration` and `Duration.ofParts`
- `Duration.text` — a duration as `[-][d.]hh:mm:ss[.fffffff]`
-/

namespace UnitText

/-- A length of time, which may be negative. -/
structure Duration where
  microseconds : Int
deriving DecidableEq

namespace Duration

def dayLength : Nat := 86400000000

/-- The whole days of a duration; what is left is not negative. -/
def days (d : Duration) : Int := d.microseconds.fdiv dayLength

/-- The microseconds that the whole days leave. -/
def rest (d : Duration) : Nat := (d.microseconds.fmod dayLength).toNat

/-- The duration of some days, seconds and microseconds. Its days have at most nine digits. -/
def ofParts (days seconds microseconds : Int) : Except Failure Duration :=
  let d : Duration := ⟨(days * 86400 + seconds) * 1000000 + microseconds⟩
  if d.days < -2 ^ 31 ∨ 2 ^ 31 ≤ d.days then .error (.range .farDays)
  else if 999999999 < d.days.natAbs then .error (.range (.days d.days))
  else .ok d

/-- The duration written out. Days and the fraction are left out if they are zero. -/
def text (d : Duration) : String :=
  let total := d.microseconds.natAbs
  let ticks := total % 1000000 * 10
  let seconds := total / 1000000
  let minutes := seconds / 60
  let hours := minutes / 60
  let days := hours / 24
  (if d.microseconds < 0 then "-" else "") ++
    (if days = 0 then "" else days.repr ++ ".") ++
    paddedText 2 (hours % 24) ++ ":" ++ paddedText 2 (minutes % 60) ++ ":" ++
    paddedText 2 (seconds % 60) ++
    (if ticks = 0 then "" else "." ++ paddedText 7 ticks)

/-- The duration apart from its notation: the days in words, which alone may be negative, then the
time that is left. -/
def plainText (d : Duration) : String :=
  let days := d.days
  let rest := d.rest
  let seconds := rest / 1000000
  (if days = 0 then ""
    else Integer.text days ++ (if days.natAbs = 1 then " day, " else " days, ")) ++
    (seconds / 3600).repr ++ ":" ++ paddedText 2 (seconds / 60 % 60) ++ ":" ++
    paddedText 2 (seconds % 60) ++
    (if rest % 1000000 = 0 then "" else "." ++ paddedText 6 (rest % 1000000))

/-- The duration as messages show it: days of either sign, then seconds and microseconds that are
not negative, each only if it is not zero. -/
def quoted (d : Duration) : String :=
  let days := d.days
  let rest := d.rest
  let part (name : String) (n : Int) : List String :=
    if n = 0 then [] else [name ++ "=" ++ Integer.text n]
  let parts := part "days" days ++ part "seconds" (rest / 1000000 : Nat) ++
    part "microseconds" (rest % 1000000 : Nat)
  "datetime.timedelta(" ++ (if parts = [] then "0" else ", ".intercalate parts) ++ ")"

end Duration

end UnitText
