import Semijoin.Logging.Record

/-!
# Layouts of log lines

A record is laid out either as a line for people, with its context as `key=value` pairs at the end,
or as one JSON object on a line. In the object the context stands beside the fields of the record
and replaces those of the same name. A record that nobody has laid out is a bare message.
-/

namespace Semijoin.Logging

inductive Layout where
  | standard
  | structured
deriving DecidableEq, Inhabited

/-- Why a record cannot be laid out. -/
inductive LayoutError where
  | template (cause : TemplateError)
  | time (cause : TimeFault)
  | keyNotText
  | tooLong

namespace Record

/-- Checks that neither the level nor the context has an integer that is too long to be written. -/
def checkIntegers (r : Record) : Except LayoutError Unit :=
  if Value.isShort r.level.rank && r.contextEntries.all (·.2.isWritable) then .ok ()
  else .error .tooLong

/-- A line with the reported failure on a new line. -/
def withFailure (r : Record) (line : Text) : Text :=
  match r.failure with
  | none => line
  | some f => (if line.endsLine then line else line ++ "\n") ++ f.text

/-- The message and the failure alone. -/
def bareLine (r : Record) : Except LayoutError Text := do
  return r.withFailure (← r.text.mapError .template)

/-- The line for people. A reported failure stands before the context. -/
def standardLine (r : Record) : Except LayoutError Text := do
  let message ← r.text.mapError .template
  let second ← r.secondText.mapError .time
  let line : Text :=
    r.withFailure (second ++ " - " ++ r.logger ++ s!" - {r.level.name} - " ++ message)
  r.checkIntegers
  let pairs : List Text := r.contextEntries.map fun (name, v) => name ++ "=" ++ v.plain
  return if pairs.isEmpty then line else line ++ " [" ++ Text.join " " pairs ++ "]"

/-- The fields of a record apart from its context and failure. -/
def baseFields (r : Record) (time : String) (message : Text) : Context :=
  [("timestamp", .str time), ("level", .str r.level.name), ("logger", .str r.logger),
    ("message", .str message), ("location", .str r.location.text)]

/-- All fields of a record in order. -/
def fields (r : Record) (time : String) (message : Text) : Context :=
  let fields := (r.baseFields time message).merge r.contextEntries
  match r.failure with
  | none => fields
  | some f => fields.put "exception" (.str f.text)

/-- The line that is a JSON object. -/
def structuredLine (r : Record) : Except LayoutError Text := do
  let time ← r.instant.mapError .time
  let message ← r.text.mapError .template
  let fields := r.fields (time.isoText "T") message
  let some line := Value.json? (.map (fields.map fun (name, v) => (.str name, v)))
    | throw .keyNotText
  r.checkIntegers
  return line

end Record

/-- The line of a record in a layout. -/
def Layout.line : Layout → Record → Except LayoutError Text
  | standard => Record.standardLine
  | structured => Record.structuredLine

end Semijoin.Logging
