import Semijoin.Value.Basic

/-!
# Log entries

What the library has to say about its work: an entry with a level, the name of the logger it goes
to, a message and optional context. Functions that log return their entries in order.
-/

namespace Semijoin.Logging

/-- How much an entry matters, as a rank. A threshold lets through its own rank and above. -/
structure Level where
  rank : Int
deriving DecidableEq, Inhabited

namespace Level

/-- The level of entries that matter to nobody. -/
def notSet : Level := ⟨0⟩

def debug : Level := ⟨10⟩

def info : Level := ⟨20⟩

def warning : Level := ⟨30⟩

def error : Level := ⟨40⟩

def critical : Level := ⟨50⟩

/-- The levels that have names of their own. -/
def named : List (Level × String) :=
  [(notSet, "NOTSET"), (debug, "DEBUG"), (info, "INFO"), (warning, "WARNING"), (error, "ERROR"),
    (critical, "CRITICAL")]

def name (l : Level) : String := (named.lookup l).getD s!"Level {l.rank}"

def ofName? (s : String) : Option Level := (named.find? (·.2 == s)).map (·.1)

end Level

/-- Named values that go with an entry, in order. -/
abbrev Context := List (Text × Value)

/-- Enters a value under a name. A name that is there keeps its place and takes the new value. -/
def Context.put (context : Context) (name : Text) (value : Value) : Context :=
  if context.any (·.1 = name) then
    context.map fun entry => if entry.1 = name then (name, value) else entry
  else context ++ [(name, value)]

/-- The first context overlaid by the second. -/
def Context.merge (context extra : Context) : Context :=
  extra.foldl (fun done (name, value) => Context.put done name value) context

structure Entry where
  level : Level
  logger : Text
  message : Text
  context : Option Context := none
deriving Inhabited

/-- The name above all loggers of the library. -/
def rootName : String := "relopt"

/-- The full name of a logger: a name that is not under the root yet is put there. -/
def loggerName (name : Text) : Text :=
  if name = rootName ∨ name.startsWith (rootName ++ ".") then name else rootName ++ "." ++ name

end Semijoin.Logging
