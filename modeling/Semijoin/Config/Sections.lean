import Semijoin.Value.Display

/-!
# Configuration sections

The settings of the optimizer, the cost model and the log, each with its defaults, and the reading
of a section from named values. A setting that is present must be of its type and in its range; the
types of all settings of a section are checked before the ranges.
-/

namespace Semijoin

/-- Why a configuration is refused. -/
inductive ConfigError where
  | wrongType (sectionName name label : String) (value : Value)
  | tooFewIterations (n : Int)
  | unknownOrder (order : Text)
  | notPositive (name : String) (value : Value)
  | negative (name : String) (value : Value)
  | sectionNotMap (sectionName : String)
  | unknownKeys (sectionName : String) (keys : List Text)
  | documentNotMap (path : String)
  | unknownSections (names : List Text)

namespace ConfigError

/-- The words of the message, with integers of any length. -/
def wording : ConfigError → Text
  | wrongType sectionName name label value =>
    s!"{sectionName}.{name} must be {label}, got {value.quoted}"
  | tooFewIterations n => s!"max_iterations must be >= 1, got {n}"
  | unknownOrder order => "Unknown match_order: " ++ order
  | notPositive name value => s!"{name} must be > 0, got " ++ value.plain
  | negative name value => s!"{name} must be >= 0, got " ++ value.plain
  | sectionNotMap sectionName => s!"Section '{sectionName}' must be a mapping"
  | unknownKeys sectionName keys =>
    s!"Unknown keys in section '{sectionName}': " ++ Text.join ", " keys
  | documentNotMap path => s!"Config file {path} must contain a mapping"
  | unknownSections names => "Unknown config sections: " ++ Text.join ", " names

/-- Whether the message can be written: no integer in it is too long. -/
def isWritable : ConfigError → Bool
  | wrongType _ _ _ value | notPositive _ value | negative _ value => value.isWritable
  | tooFewIterations n => Value.isShort n
  | _ => true

/-- The message, if it can be written. An error without one never comes to be: writing the message
fails first. -/
def message? (e : ConfigError) : Option Text := if e.isWritable then some e.wording else none

end ConfigError

/-- The capital form of a character, as far as it consists of letters from A to Z. -/
def capital : Char → List Char
  | 'ı' => ['I']
  | 'ſ' => ['S']
  | 'ß' => ['S', 'S']
  | '\ufb00' => ['F', 'F']
  | '\ufb01' => ['F', 'I']
  | '\ufb02' => ['F', 'L']
  | '\ufb03' => ['F', 'F', 'I']
  | '\ufb04' => ['F', 'F', 'L']
  | '\ufb05' | '\ufb06' => ['S', 'T']
  | c => [c.toUpper]

/-- A text in capitals, as far as it can spell a name in the letters from A to Z. -/
def capitals (t : Text) : String := String.ofList (t.toChars.flatMap capital)

/-- The order in which nodes are visited. -/
inductive MatchOrder where
  | bottomUp
  | topDown
deriving DecidableEq, Inhabited

namespace MatchOrder

def name : MatchOrder → String
  | bottomUp => "BOTTOM_UP"
  | topDown => "TOP_DOWN"

/-- Reads an order without regard to case. -/
def ofText? (t : Text) : Option MatchOrder :=
  if capitals t = "BOTTOM_UP" then some bottomUp
  else if capitals t = "TOP_DOWN" then some topDown
  else none

end MatchOrder

/-- A number that a configuration may hold. -/
inductive Number where
  | int (n : Int)
  | float (x : Binary64)
deriving DecidableEq, Inhabited

namespace Number

def value : Number → Value
  | int n => .int n
  | float x => .float x

/-- Whether a number lies below zero; a NaN does not. -/
def isNegative : Number → Bool
  | int n => n < 0
  | float x => x.lt .zero

end Number

/-- The settings of the optimizer. The order is kept as it was written. -/
structure OptimizerConfig where
  filterTranspose : Bool := true
  projectTranspose : Bool := true
  maxIterations : Int := 10
  matchOrder : Text := "BOTTOM_UP"
deriving DecidableEq, Inhabited

/-- The settings of the cost model. -/
structure CostConfig where
  cpuTupleCost : Number := .float (.ofRat (1 / 100))
  ioPageCost : Number := .float .one
  pageSizeBytes : Int := 8192
  defaultRowCount : Int := 1000
  defaultColumnWidth : Int := 8
deriving Inhabited

/-- The settings of the log. -/
structure LoggingConfig where
  level : Text := "INFO"
  structured : Bool := false
  logFile : Option Text := none
deriving DecidableEq, Inhabited

/-- The values of a section by name. -/
abbrev Settings := List (String × Value)

namespace Settings

/-- The value of a setting under a reader for its type, or the default if it is not given. -/
def read {α : Type} (settings : Settings) (sectionName name label : String) (default : α)
    (ofValue? : Value → Option α) : Except ConfigError α :=
  match settings.lookup name with
  | none => .ok default
  | some value =>
    match ofValue? value with
    | some x => .ok x
    | none => .error (.wrongType sectionName name label value)

def bool? : Value → Option Bool
  | .bool b => some b
  | _ => none

def int? : Value → Option Int
  | .int n => some n
  | _ => none

def number? : Value → Option Number
  | .int n => some (.int n)
  | .float x => some (.float x)
  | _ => none

def text? : Value → Option Text
  | .str s => some s
  | _ => none

def optionalText? : Value → Option (Option Text)
  | .null => some none
  | .str s => some (some s)
  | _ => none

end Settings

/-- Refuses a number below zero. -/
def checkNotNegative (name : String) (n : Number) : Except ConfigError Unit :=
  if n.isNegative then .error (.negative name n.value) else .ok ()

namespace OptimizerConfig

def settingNames : List String :=
  ["enable_semi_anti_filter_transpose", "enable_semi_anti_project_transpose", "max_iterations",
    "match_order"]

def ofSettings (settings : Settings) : Except ConfigError OptimizerConfig := do
  let filterTranspose ← settings.read "optimizer" "enable_semi_anti_filter_transpose"
    "true or false" true Settings.bool?
  let projectTranspose ← settings.read "optimizer" "enable_semi_anti_project_transpose"
    "true or false" true Settings.bool?
  let maxIterations ← settings.read "optimizer" "max_iterations" "an integer" 10 Settings.int?
  let matchOrder ← settings.read "optimizer" "match_order" "a string" ("BOTTOM_UP" : Text)
    Settings.text?
  if maxIterations < 1 then throw (.tooFewIterations maxIterations)
  if (MatchOrder.ofText? matchOrder).isNone then throw (.unknownOrder matchOrder)
  return { filterTranspose, projectTranspose, maxIterations, matchOrder }

def toSettings (c : OptimizerConfig) : Settings :=
  [("enable_semi_anti_filter_transpose", .bool c.filterTranspose),
    ("enable_semi_anti_project_transpose", .bool c.projectTranspose),
    ("max_iterations", .int c.maxIterations), ("match_order", .str c.matchOrder)]

end OptimizerConfig

namespace CostConfig

def settingNames : List String :=
  ["cpu_tuple_cost", "io_page_cost", "page_size_bytes", "default_row_count",
    "default_column_width"]

def ofSettings (settings : Settings) : Except ConfigError CostConfig := do
  let defaults : CostConfig := {}
  let cpuTupleCost ← settings.read "cost" "cpu_tuple_cost" "a number" defaults.cpuTupleCost
    Settings.number?
  let ioPageCost ← settings.read "cost" "io_page_cost" "a number" defaults.ioPageCost
    Settings.number?
  let pageSizeBytes ← settings.read "cost" "page_size_bytes" "an integer" defaults.pageSizeBytes
    Settings.int?
  let defaultRowCount ← settings.read "cost" "default_row_count" "an integer"
    defaults.defaultRowCount Settings.int?
  let defaultColumnWidth ← settings.read "cost" "default_column_width" "an integer"
    defaults.defaultColumnWidth Settings.int?
  if pageSizeBytes ≤ 0 then throw (.notPositive "page_size_bytes" (.int pageSizeBytes))
  checkNotNegative "cpu_tuple_cost" cpuTupleCost
  checkNotNegative "io_page_cost" ioPageCost
  checkNotNegative "default_row_count" (.int defaultRowCount)
  checkNotNegative "default_column_width" (.int defaultColumnWidth)
  return { cpuTupleCost, ioPageCost, pageSizeBytes, defaultRowCount, defaultColumnWidth }

def toSettings (c : CostConfig) : Settings :=
  [("cpu_tuple_cost", c.cpuTupleCost.value), ("io_page_cost", c.ioPageCost.value),
    ("page_size_bytes", .int c.pageSizeBytes), ("default_row_count", .int c.defaultRowCount),
    ("default_column_width", .int c.defaultColumnWidth)]

end CostConfig

namespace LoggingConfig

def settingNames : List String := ["level", "structured", "log_file"]

def ofSettings (settings : Settings) : Except ConfigError LoggingConfig := do
  let level ← settings.read "logging" "level" "a string" ("INFO" : Text) Settings.text?
  let structured ← settings.read "logging" "structured" "true or false" false Settings.bool?
  let logFile ← settings.read "logging" "log_file" "a path string" none Settings.optionalText?
  return { level, structured, logFile }

def toSettings (c : LoggingConfig) : Settings :=
  [("level", .str c.level), ("structured", .bool c.structured),
    ("log_file", (c.logFile.map Value.str).getD .null)]

end LoggingConfig

end Semijoin
