import UnitText.Value.Duration

/-!
# Dates and times

Dates and times of day are written as ISO 8601 lays them out. A time of day may carry the offset of
its clock from universal time.

## Main definitions

- `Date`, `TimeOfDay`, `DateTime`, each with its `ofParts`, which checks its parts
- `Date.text`, `TimeOfDay.text`, `DateTime.text`
-/

namespace UnitText

structure Date where
  year : Nat
  /-- The month, from 1. -/
  month : Nat
  /-- The day of the month, from 1. -/
  day : Nat
deriving DecidableEq

structure TimeOfDay where
  hour : Nat
  minute : Nat
  second : Nat := 0
  microsecond : Nat := 0
  /-- The offset of the clock from universal time, in seconds. -/
  offset : Option Int := none
deriving DecidableEq

/-- A day and a time on it. -/
structure DateTime where
  date : Date
  time : TimeOfDay
deriving DecidableEq

/-- A part of a date or a time, which has to fit in 32 bits. -/
def calendarPart (n : Int) : Except Failure Int :=
  if n < -2 ^ 63 ∨ 2 ^ 63 ≤ n then .error (.range .farPart)
  else if 2 ^ 31 ≤ n then .error (.range .partAbove)
  else if n < -2 ^ 31 then .error (.range .partBelow)
  else .ok n

namespace Date

/-- Whether February of the year has a leap day. -/
def isLeap (year : Nat) : Bool := year % 4 = 0 && (year % 100 ≠ 0 || year % 400 = 0)

def daysIn (year month : Nat) : Nat :=
  if month = 2 then (if isLeap year then 29 else 28)
  else if month = 4 ∨ month = 6 ∨ month = 9 ∨ month = 11 then 30
  else 31

/-- The date with these numbers, if there is one. Years have at most four digits. -/
def ofNumbers (year month day : Int) : Except Failure Date :=
  if year < 1 ∨ 9999 < year then .error (.value (.yearOutside year))
  else if month < 1 ∨ 12 < month then .error (.value .monthOutside)
  else if day < 1 ∨ daysIn year.toNat month.toNat < day then .error (.value .dayOutside)
  else .ok ⟨year.toNat, month.toNat, day.toNat⟩

/-- The date with these parts: year, month and day. -/
def ofParts (parts : List Int) : Except Failure Date := do
  match ← parts.mapM calendarPart with
  | year :: month :: day :: _ => ofNumbers year month day
  | [_, _] => throw (.type (.missingPart "day" 3))
  | [_] => throw (.type (.missingPart "month" 2))
  | [] => throw (.type (.missingPart "year" 1))

end Date

namespace TimeOfDay

/-- The offset of a clock, in seconds, which is less than a day. -/
def checkedOffset : Option Int → Except Failure (Option Int)
  | none => .ok none
  | some n => do
    let d ← Duration.ofParts 0 n 0
    if 86400 ≤ n.natAbs then throw (.value (.offsetOutside d.quoted))
    return some n

/-- A number for a part of a time, which has a greatest one. -/
def ofNumber (part : String) (limit : Nat) (n : Int) : Except Failure Nat :=
  if n < 0 ∨ limit < n then .error (.value (.timeOutside part limit)) else .ok n.toNat

/-- The time with these numbers, those that are missing being zero. -/
def ofNumbers (numbers : List Int) (offset : Option Int) : Except Failure TimeOfDay := do
  let hour ← ofNumber "hour" 23 (numbers.getD 0 0)
  let minute ← ofNumber "minute" 59 (numbers.getD 1 0)
  let second ← ofNumber "second" 59 (numbers.getD 2 0)
  let microsecond ← ofNumber "microsecond" 999999 (numbers.getD 3 0)
  return { hour, minute, second, microsecond, offset }

/-- The time with these parts: hour, minute, second and microsecond, on a clock with an offset. -/
def ofParts (parts : List Int) (offset : Option Int) : Except Failure TimeOfDay := do
  let offset ← checkedOffset offset
  ofNumbers (← parts.mapM calendarPart) offset

end TimeOfDay

/-- The date and time with these parts, on a clock with an offset. -/
def DateTime.ofParts (parts : List Int) (offset : Option Int) : Except Failure DateTime := do
  let offset ← TimeOfDay.checkedOffset offset
  let numbers ← parts.mapM calendarPart
  let date ← Date.ofParts (numbers.take 3)
  return ⟨date, ← TimeOfDay.ofNumbers (numbers.drop 3) offset⟩

/-- The date, with four digits for the year and two for month and day. -/
def Date.text (d : Date) : String :=
  paddedText 4 d.year ++ "-" ++ paddedText 2 d.month ++ "-" ++ paddedText 2 d.day

def Date.quoted (d : Date) : String :=
  "datetime.date(" ++ ", ".intercalate ([d.year, d.month, d.day].map Nat.repr) ++ ")"

namespace TimeOfDay

/-- The offset of a clock, with its seconds only if there are any. -/
def offsetText (offset : Int) : String :=
  let n := offset.natAbs
  (if offset < 0 then "-" else "+") ++ paddedText 2 (n / 3600) ++ ":" ++
    paddedText 2 (n / 60 % 60) ++ (if n % 60 = 0 then "" else ":" ++ paddedText 2 (n % 60))

/-- The time of day, with its microseconds only if there are any. -/
def text (t : TimeOfDay) : String :=
  paddedText 2 t.hour ++ ":" ++ paddedText 2 t.minute ++ ":" ++ paddedText 2 t.second ++
    (if t.microsecond = 0 then "" else "." ++ paddedText 6 t.microsecond) ++
    (match t.offset with
      | none => ""
      | some n => offsetText n)

/-- The numbers after hour and minute in a message: none that is zero and last. -/
def quotedParts (t : TimeOfDay) : List String :=
  [t.hour, t.minute].map Nat.repr ++
    (if t.microsecond ≠ 0 then [t.second, t.microsecond].map Nat.repr
      else if t.second ≠ 0 then [t.second.repr] else []) ++
    (match t.offset with
      | none => []
      | some n =>
        ["tzinfo=" ++
          if n = 0 then "datetime.timezone.utc"
          else "datetime.timezone(" ++ (Duration.mk (n * 1000000)).quoted ++ ")"])

def quoted (t : TimeOfDay) : String :=
  "datetime.time(" ++ ", ".intercalate t.quotedParts ++ ")"

end TimeOfDay

def DateTime.text (d : DateTime) : String := d.date.text ++ " " ++ d.time.text

def DateTime.quoted (d : DateTime) : String :=
  "datetime.datetime(" ++
    ", ".intercalate ([d.date.year, d.date.month, d.date.day].map Nat.repr ++ d.time.quotedParts) ++
    ")"

end UnitText
