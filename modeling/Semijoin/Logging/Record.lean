import Semijoin.Logging.Entry
import Semijoin.Logging.Template

/-!
# Log records

A record is an entry together with the circumstances it was made in: the reading of the clock, the
place in the program and, where one is reported, a failure. Its message is a template that the
arguments fill.
-/

namespace Semijoin.Logging

/-- A place in a program. -/
structure Location where
  moduleName : Text
  function : Text
  line : Int
deriving DecidableEq, Inhabited

def Location.text (l : Location) : Text := l.moduleName ++ "." ++ l.function ++ s!":{l.line}"

/-- What the details of a failure are: what it says, the key of a failed look-up, or the number and
text of a fault of the system and the files it is about. -/
inductive FailureForm where
  | general
  | lookup
  | system
deriving DecidableEq, Inhabited

/-- A failure that a record reports, by its kind and what it says. -/
structure Failure where
  kind : String
  details : List Value
  form : FailureForm := .general
deriving Inhabited

namespace Failure

/-- The files of a fault of the system, after its number and text: the first one, and with a fifth
detail a second one. -/
def files : List Value → List Value
  | [] | .null :: _ => []
  | [file, _, .null] => [file]
  | [file, _, other] => [file, other]
  | file :: _ => [file]

/-- What the failure says: nothing, a text, or several values in parentheses. The key of a failed
look-up is quoted. A fault of the system has two to five details. -/
def shownDetails (f : Failure) : Text :=
  match f.form, f.details with
  | _, [] => ""
  | .lookup, [v] => v.quoted
  | _, [v] => v.plain
  | form, number :: text :: rest =>
    if form = .system ∧ rest.length ≤ 3 then
      let shown := " -> ".intercalate ((files rest).map Value.quoted)
      "[Errno " ++ number.plain ++ "] " ++ text.plain ++
        (if shown.isEmpty then "" else ": " ++ shown)
    else "(" ++ ", ".intercalate (f.details.map Value.quoted) ++ ")"

/-- What the failure says, as far as that can be written. -/
def description (f : Failure) : Text :=
  if f.details.all Value.isWritable then f.shownDetails else "<exception str() failed>"

def text (f : Failure) : Text :=
  if f.description.isEmpty then f.kind else f.kind ++ ": " ++ f.description

end Failure

/-- An entry with its circumstances. `time` is the reading of the clock in seconds since
1970-01-01. -/
structure Record extends Entry where
  time : Rat
  location : Location
  arguments : List Value := []
  failure : Option Failure := none
deriving Inhabited

/-- Why a clock reading cannot be shown: its seconds do not fit in 64 bits, its year counted from
1900 does not fit in 32, its year itself does not, or its year is not in the calendar. -/
inductive TimeFault where
  | wideSeconds
  | farYear
  | wideYear
  | year (year : Int)
deriving DecidableEq

def TimeFault.message : TimeFault → String
  | wideSeconds => "timestamp out of range for platform time_t"
  | farYear => "Value too large for defined data type"
  | wideYear => "signed integer is greater than maximum"
  | year n => (CalendarFault.year n).message

/-- Checks that seconds since 1970-01-01 can be told as a date. -/
def checkClock (seconds : Int) : Except TimeFault Unit :=
  let bits (n : Int) (bound : Int) : Bool := -bound ≤ n && n < bound
  if !bits seconds 0x8000000000000000 then .error .wideSeconds
  else if !bits ((Date.ofEpochDay (seconds / 86400)).year - 1900) 0x80000000 then .error .farYear
  else .ok ()

namespace Record

def text (r : Record) : Except TemplateError Text := fillTemplate r.message r.arguments

/-- The microseconds from 1970-01-01 to a clock reading. Only the fraction of a second is scaled,
in double precision, and rounded. -/
def microseconds (r : Record) : Int :=
  let whole := Directive.truncate r.time
  whole * 1000000 + roundHalfEven (Binary64.roundValue ((r.time - whole) * 1000000))

/-- The universal time of a record to the microsecond, if its year is in the calendar. Of a year
that is not, the message shows the last 32 bits. -/
def instant (r : Record) : Except TimeFault DateTime := do
  let seconds := r.microseconds / 1000000
  checkClock seconds
  let t := DateTime.ofEpoch seconds (r.microseconds % 1000000).toNat
  let year := t.date.year.bmod 0x100000000
  if year < 1 ∨ 9999 < year then throw (.year year)
  return t

/-- The second that the clock reading lies in, with a year of 32 bits. -/
def secondText (r : Record) : Except TimeFault String := do
  checkClock r.time.floor
  let t := DateTime.ofEpoch r.time.floor 0
  if 0x80000000 ≤ t.date.year then throw .wideYear
  return s!"{t.date.year}-{padded 2 t.date.month}-{padded 2 t.date.day} {t.timeText}"

/-- The context of a record; an absent one counts as empty. -/
def contextEntries (r : Record) : Context := r.context.getD []

end Record

end Semijoin.Logging
