import Semijoin.Calendar
import Semijoin.Text.Quoted

/-!
# Standard text of dates and times

Reading dates and times in their standard form, which has the parts from the year to the second in
order, each with a fixed number of digits. A date is given by month and day, or by week and day of
the week. The separators between the parts of a date, or between those of a time, can be left out
together, and a time can end early. A fraction and the distance from universal time can follow.

Past the last part that it looks for, a reader does not look further: what lies behind a date of
the right length, or between a time and its distance from universal time, can go unnoticed. The
character of code zero counts as the end of the text.
-/

namespace Semijoin

/-- Why a text gives no date or time. -/
inductive IsoFault where
  | form (text : Text)
  | calendar (cause : CalendarFault)
deriving DecidableEq

def IsoFault.message : IsoFault → Text
  | form text => s!"Invalid isoformat string: {quoteText text}"
  | calendar cause => cause.message

namespace IsoText

/-- Takes a number of `width` digits. -/
def number? (width : Nat) (cs : List Char) : Option (Nat × List Char) :=
  let ds := (cs.take width).takeWhile Char.isDigit
  if ds.length = width then
    some (ds.foldl (fun n c => 10 * n + (c.toNat - '0'.toNat)) 0, cs.drop width)
  else none

/-- Takes a character. -/
def take? (c : Char) : List Char → Option (List Char)
  | [] => none
  | d :: cs => if d = c then some cs else none

/-- Whether a text is at its end. -/
def atEnd (cs : List Char) : Bool := cs.head?.all (· = '\x00')

/-- Year, month and day of a date. They need not be in the calendar, but a week has to be. -/
def date? (cs : List Char) : Option (Int × Nat × Nat) := do
  let (year, cs) ← number? 4 cs
  let separated := cs.head? = some '-'
  let separator (cs : List Char) : Option (List Char) := if separated then take? '-' cs else some cs
  match ← separator cs with
  | 'W' :: cs =>
    let (week, cs) ← number? 2 cs
    let day ← if cs = [] then pure 1 else (·.1) <$> number? 1 (← separator cs)
    if year = 0 then none
    let d ← Date.ofWeek? year week day
    return (d.year, d.month, d.day)
  | cs =>
    let (month, cs) ← number? 2 cs
    let (day, _) ← number? 2 (← separator cs)
    return (year, month, day)

/-- The place of the character between date and time, in a text of at least seven characters. With
digits alone behind a week, their number tells whether the first of them is a day. -/
def dateLength (cs : List Char) : Nat :=
  let digitAt (i : Nat) : Bool := cs[i]?.any Char.isDigit
  if cs.length = 7 then 7
  else if cs[4]? = some '-' then
    if cs[5]? ≠ some 'W' then 10
    else if cs[8]? = some '-' ∧ !digitAt 10 then 10
    else 8
  else if cs[4]? ≠ some 'W' then 8
  else
    let digits := ((cs.drop 7).takeWhile Char.isDigit).length
    if digits < 2 then 7 + digits else if digits % 2 = 1 then 7 else 8

/-- Hour, minute, second and microseconds, and whether the text ends with them. -/
structure Clock where
  parts : List Nat
  microsecond : Nat := 0
  ends : Bool

/-- The seconds since midnight. -/
def Clock.seconds (c : Clock) : Nat :=
  c.parts.getD 0 0 * 3600 + c.parts.getD 1 0 * 60 + c.parts.getD 2 0

/-- The clock whose parts have been read, and whose fraction follows. It has six digits at most;
others are dropped, and nothing is read behind them. -/
def fraction? (parts : List Nat) (cs : List Char) : Option Clock := do
  let width := min 6 cs.length
  let (n, rest) ← number? width cs
  return ⟨parts, n * Nat.pow 10 (6 - width), atEnd (rest.dropWhile Char.isDigit)⟩

/-- The clock whose first parts have been read, with `most` parts that may follow. Whether parts are
separated is known once the first has been read. A single character of ASCII behind the parts is
left. -/
def clock? (parts : List Nat) (separated : Option Bool) : (most : Nat) → List Char → Option Clock
  | 0, cs => fraction? parts cs
  | most + 1, cs => do
    let (n, cs) ← number? 2 cs
    let parts := parts ++ [n]
    match cs with
    | [] => return ⟨parts, 0, true⟩
    | c :: rest =>
      let separated := separated.getD (c = ':')
      if rest = [] && c.toNat < 0x80 then return ⟨parts, 0, atEnd cs⟩
      else if separated && c = ':' then clock? parts (some true) most rest
      else if c = '.' || c = ',' then fraction? parts rest
      else if separated then none
      else clock? parts (some false) most cs

/-- A time, and the distance from universal time in microseconds if the text gives one. A distance
of less than a second counts as none. -/
def time? (cs : List Char) : Option (Clock × Option Int) := do
  let isTime (c : Char) : Bool := c ≠ '+' && c ≠ '-' && c ≠ 'Z'
  let clock ← clock? [] none 3 (cs.takeWhile isTime)
  match cs.dropWhile isTime with
  | [] => if clock.ends then return (clock, none) else none
  | 'Z' :: rest => if atEnd rest then return (clock, some 0) else none
  | sign :: rest =>
    let distance ← clock? [] none 3 rest
    if !distance.ends then none
    let size : Int :=
      if distance.seconds = 0 then 0
      else distance.seconds * secondLength + distance.microsecond
    return (clock, some (if sign = '-' then -size else size))

/-- The characters of a text, if it has no surrogate but one where the time may start. -/
def chars? (t : Text) : Option (List Char) :=
  let isSurrogate (p : CodePoint) : Bool := match p with
    | .surrogate _ => true
    | .char _ => false
  let points := match [7, 8, 10].find? fun i => t.points[i]?.any isSurrogate with
    | some i => t.points.set i (.char 'T')
    | none => t.points
  if points.any isSurrogate then none else some (points.map CodePoint.toChar)

end IsoText

/-- Reads a date in its standard form. -/
def Date.ofIsoText (t : Text) : Except IsoFault Date :=
  let bytes := t.toString.utf8ByteSize
  let hasLength := bytes = 7 || bytes = 8 || bytes = 10
  match IsoText.date? t.toChars with
  | some (year, month, day) =>
    if hasLength then (Date.ofParts year month day).mapError .calendar else .error (.form t)
  | none => .error (.form t)

/-- Reads a date and time in the standard form, with any character between the two. A date alone
stands for its first moment. -/
def DateTime.ofIsoText (t : Text) : Except IsoFault DateTime :=
  let parts : Option ((Int × Nat × Nat) × IsoText.Clock × Option Int) := do
    let cs ← IsoText.chars? t
    if cs.length < 7 then none
    let length := IsoText.dateLength cs
    let date ← IsoText.date? (cs.take length)
    match cs.drop length with
    | [] => return (date, { parts := [], ends := true }, none)
    | _ :: rest => return (date, ← IsoText.time? rest)
  match parts with
  | none => .error (.form t)
  | some ((year, month, day), clock, offset) =>
    let result : Except CalendarFault DateTime := do
      let offset ← offset.mapM DateTime.checkOffset
      DateTime.ofParts year month day (clock.parts.getD 0 0) (clock.parts.getD 1 0)
        (clock.parts.getD 2 0) clock.microsecond offset
    result.mapError .calendar

end Semijoin
