/-!
# Dates and times

Dates of the Gregorian calendar, extended to years before its adoption, their position on the
line of days around 1970-01-01, and times of day with an optional distance from universal time.
-/

namespace Semijoin

/-- A number written with at least `width` digits. -/
def padded (width : Nat) (n : Nat) : String :=
  let digits := Nat.repr n
  "".pushn '0' (width - digits.length) ++ digits

/-- A calendar date. -/
structure Date where
  year : Int
  month : Nat
  day : Nat
deriving DecidableEq, Inhabited

/-- A date with a time of day. The offset is the distance of local time from universal time in
microseconds, where it is known. -/
structure DateTime where
  date : Date
  hour : Nat
  minute : Nat
  second : Nat
  microsecond : Nat
  offset : Option Int := none
deriving DecidableEq, Inhabited

/-- Why parts do not form a date or time. -/
inductive CalendarFault where
  | year (year : Int)
  | month
  | day
  | hour
  | minute
  | second
  | offset (microseconds : Int)
deriving DecidableEq

/-- The number of microseconds in a second, and in a day. -/
def secondLength : Int := 1000000

def dayLength : Int := 86400 * secondLength

/-- The text of a duration in a message: whole days, which alone can be negative, and what is left.
-/
def durationText (microseconds : Int) : String :=
  let part (name : String) (n : Int) : List String := if n = 0 then [] else [s!"{name}={n}"]
  let rest := microseconds % dayLength
  let parts := part "days" (microseconds / dayLength) ++ part "seconds" (rest / secondLength) ++
    part "microseconds" (rest % secondLength)
  "datetime.timedelta(" ++ (if parts.isEmpty then "0" else ", ".intercalate parts) ++ ")"

def CalendarFault.message : CalendarFault → String
  | .year n => s!"year {n} is out of range"
  | .month => "month must be in 1..12"
  | .day => "day is out of range for month"
  | .hour => "hour must be in 0..23"
  | .minute => "minute must be in 0..59"
  | .second => "second must be in 0..59"
  | .offset microseconds =>
    "offset must be a timedelta strictly between -timedelta(hours=24) and timedelta(hours=24), " ++
      "not " ++ durationText microseconds ++ "."

def isLeapYear (year : Int) : Bool :=
  year % 4 = 0 && (year % 100 ≠ 0 || year % 400 = 0)

def daysInMonth (year : Int) (month : Nat) : Nat :=
  if month = 2 then (if isLeapYear year then 29 else 28)
  else if month = 4 ∨ month = 6 ∨ month = 9 ∨ month = 11 then 30 else 31

namespace Date

/-- The date of these parts. Years run from 1 to 9999. -/
def ofParts (year : Int) (month day : Nat) : Except CalendarFault Date :=
  if year < 1 ∨ 9999 < year then .error (.year year)
  else if month < 1 ∨ 12 < month then .error .month
  else if day < 1 ∨ daysInMonth year month < day then .error .day
  else .ok ⟨year, month, day⟩

/-- The date that lies `days` after 1970-01-01. Months are counted from March, so that the leap day
ends the year, and years in eras of 400. -/
def ofEpochDay (days : Int) : Date :=
  let shifted := days + 719468
  let era := shifted / 146097
  let dayOfEra := (shifted % 146097).toNat
  let yearOfEra := (dayOfEra - dayOfEra / 1460 + dayOfEra / 36524 - dayOfEra / 146096) / 365
  let dayOfYear := dayOfEra - (365 * yearOfEra + yearOfEra / 4 - yearOfEra / 100)
  let march := (5 * dayOfYear + 2) / 153
  let day := dayOfYear - (153 * march + 2) / 5 + 1
  let month := if march < 10 then march + 3 else march - 9
  ⟨era * 400 + yearOfEra + (if month ≤ 2 then 1 else 0), month, day⟩

/-- The number of days from 1970-01-01 to a date. -/
def toEpochDay (d : Date) : Int :=
  let year := if d.month ≤ 2 then d.year - 1 else d.year
  let yearOfEra := year % 400
  let march : Int := (d.month + 9) % 12
  let dayOfYear := (153 * march + 2) / 5 + d.day - 1
  (year / 400) * 146097 + (yearOfEra * 365 + yearOfEra / 4 - yearOfEra / 100 + dayOfYear) - 719468

/-- The Monday that the first week of a year starts with: the week that January 4 lies in. -/
def firstMonday (year : Int) : Int :=
  let day := toEpochDay ⟨year, 1, 4⟩
  day - (day + 3) % 7

/-- The number of weeks of a year. -/
def weeksIn (year : Int) : Nat := ((firstMonday (year + 1) - firstMonday year) / 7).toNat

/-- The date of a day of a week, if the year has that week; Monday is the first day. -/
def ofWeek? (year : Int) (week day : Nat) : Option Date :=
  if 1 ≤ week ∧ week ≤ weeksIn year ∧ 1 ≤ day ∧ day ≤ 7 then
    some (ofEpochDay (firstMonday year + (7 * (week - 1) + (day - 1) : Nat)))
  else none

/-- A date of four-digit year in its standard form. -/
def isoText (d : Date) : String :=
  s!"{padded 4 d.year.toNat}-{padded 2 d.month}-{padded 2 d.day}"

/-- A date as the expression that builds it. -/
def sourceText (d : Date) : String := s!"datetime.date({d.year}, {d.month}, {d.day})"

end Date

namespace DateTime

/-- The date and time of these parts. -/
def ofParts (year : Int) (month day hour minute second microsecond : Nat) (offset : Option Int) :
    Except CalendarFault DateTime := do
  let date ← Date.ofParts year month day
  if 23 < hour then throw .hour
  if 59 < minute then throw .minute
  if 59 < second then throw .second
  return ⟨date, hour, minute, second, microsecond, offset⟩

/-- A distance from universal time, which must stay below a day. -/
def checkOffset (microseconds : Int) : Except CalendarFault Int :=
  if -dayLength < microseconds ∧ microseconds < dayLength then .ok microseconds
  else .error (.offset microseconds)

/-- The universal time that lies `seconds` and `microseconds` after 1970-01-01. -/
def ofEpoch (seconds : Int) (microsecond : Nat) : DateTime :=
  let rest := (seconds % 86400).toNat
  { date := .ofEpochDay (seconds / 86400)
    hour := rest / 3600
    minute := rest / 60 % 60
    second := rest % 60
    microsecond
    offset := some 0 }

/-- The microseconds from 1970-01-01 to a time whose offset is known. -/
def instant? (t : DateTime) : Option Int :=
  t.offset.map fun offset =>
    let seconds := t.date.toEpochDay * 86400 + t.hour * 3600 + t.minute * 60 + t.second
    seconds * secondLength + t.microsecond - offset

/-- Whether two times are the same: the same instant if both offsets are known, the same reading if
neither is. -/
def same (t u : DateTime) : Bool :=
  match t.instant?, u.instant? with
  | none, none => t = u
  | some i, some j => i = j
  | _, _ => false

def timeText (t : DateTime) : String :=
  s!"{padded 2 t.hour}:{padded 2 t.minute}:{padded 2 t.second}"

/-- A fraction of a second, where there is one. -/
def fractionText (microsecond : Nat) : String :=
  if microsecond = 0 then "" else s!".{padded 6 microsecond}"

/-- The offset as sign, hours and minutes, with seconds and their fraction only where there are
some. -/
def offsetText : Option Int → String
  | none => ""
  | some offset =>
    let seconds := offset.natAbs / secondLength.toNat
    let fraction := offset.natAbs % secondLength.toNat
    (if offset < 0 then "-" else "+") ++
      s!"{padded 2 (seconds / 3600)}:{padded 2 (seconds / 60 % 60)}" ++
      (if seconds % 60 = 0 ∧ fraction = 0 then ""
        else s!":{padded 2 (seconds % 60)}" ++ fractionText fraction)

/-- A date and time in the standard form; microseconds only where there are some. -/
def isoText (separator : String) (t : DateTime) : String :=
  t.date.isoText ++ separator ++ t.timeText ++ fractionText t.microsecond ++ offsetText t.offset

/-- A date and time as the expression that builds it: hour and minute always, the rest only where
it is not zero. -/
def sourceText (t : DateTime) : String :=
  let time :=
    if t.microsecond ≠ 0 then [t.hour, t.minute, t.second, t.microsecond]
    else if t.second ≠ 0 then [t.hour, t.minute, t.second]
    else [t.hour, t.minute]
  let parts := [toString t.date.year, Nat.repr t.date.month, Nat.repr t.date.day] ++
    time.map Nat.repr
  let zone := match t.offset with
    | none => ""
    | some 0 => ", tzinfo=datetime.timezone.utc"
    | some offset => ", tzinfo=datetime.timezone(" ++ durationText offset ++ ")"
  "datetime.datetime(" ++ ", ".intercalate parts ++ zone ++ ")"

end DateTime

end Semijoin
