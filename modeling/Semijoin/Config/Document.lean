import Semijoin.Config.Sections

/-!
# Configuration documents

A configuration document is a map with up to three sections, each a map of settings or null. Names
that nothing is known about are refused; they are listed in ascending order. A key that is not text
cannot be listed and is a fault of its own.
-/

namespace Semijoin

/-- Why a section or document is refused. -/
inductive DocumentError where
  | keyNotText
  | config (cause : ConfigError)

/-- The settings for the optimizer, the cost model and the log together. -/
structure Config where
  optimizer : OptimizerConfig := {}
  cost : CostConfig := {}
  logging : LoggingConfig := {}
deriving Inhabited

namespace Config

/-- The keys of a map as names, if all of them are known. Otherwise the error that lists the ones
that are not. -/
def checkKeys (known : List String) (fault : List Text → ConfigError)
    (entries : List (Value × Value)) : Except DocumentError Settings :=
  let named := entries.filterMap fun (key, value) =>
    match key with
    | .str name => some (name, value)
    | _ => none
  let isKnown (name : Text) : Bool := known.any fun k => Text.ofString k = name
  let unknown := (named.map (·.1)).filter fun name => !isKnown name
  if named.length ≠ entries.length then .error .keyNotText
  else if unknown.isEmpty then .ok (named.map fun (name, value) => (name.toString, value))
  else .error (.config (fault (unknown.mergeSort Text.le)))

/-- Reads a section that is given as a value. -/
def readSection {α : Type} (sectionName : String) (known : List String) (default : α)
    (ofSettings : Settings → Except ConfigError α) : Value → Except DocumentError α
  | .null => .ok default
  | .map entries => do
    let settings ← checkKeys known (.unknownKeys sectionName) entries
    (ofSettings settings).mapError .config
  | _ => .error (.config (.sectionNotMap sectionName))

def optimizerSection : Value → Except DocumentError OptimizerConfig :=
  readSection "optimizer" OptimizerConfig.settingNames {} OptimizerConfig.ofSettings

def costSection : Value → Except DocumentError CostConfig :=
  readSection "cost" CostConfig.settingNames {} CostConfig.ofSettings

def loggingSection : Value → Except DocumentError LoggingConfig :=
  readSection "logging" LoggingConfig.settingNames {} LoggingConfig.ofSettings

/-- The entries of a document that was found at a path. An empty one stands for an empty map. -/
def documentEntries (path : String) : Value → Except DocumentError (List (Value × Value))
  | .map entries => .ok entries
  | value => if value.isEmpty then .ok [] else .error (.config (.documentNotMap path))

/-- The value of a section; one that is not given is null. -/
def sectionValue (sections : Settings) (name : String) : Value :=
  (sections.lookup name).getD .null

/-- Reads the sections of a document, one after the other. -/
def ofSections (sections : Settings) : Except DocumentError Config := do
  let optimizer ← optimizerSection (sectionValue sections "optimizer")
  let cost ← costSection (sectionValue sections "cost")
  let logging ← loggingSection (sectionValue sections "logging")
  return { optimizer, cost, logging }

/-- Reads a document that was found at a path. -/
def ofDocument (path : String) (document : Value) : Except DocumentError Config := do
  let entries ← documentEntries path document
  let sections ← checkKeys ["optimizer", "cost", "logging"] .unknownSections entries
  ofSections sections

end Config

end Semijoin
