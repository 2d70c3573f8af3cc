import Semijoin.Config.Sections
import Semijoin.Logging.Hierarchy
import Semijoin.Logging.Layout

/-!
# Setting up the log

The logger at the top of the library owns the handlers that write lines to the console and to a
file. Setting it up takes the handlers of the previous setup down before the new ones are put in
place. A record reaches the handlers if its logger lies below that one and its level reaches the
threshold there, and it is written by those handlers whose own threshold it reaches. A record that
no handler gets is left to a last resort. Whether a file can be opened is up to the system.
-/

namespace Semijoin.Logging

/-- Where a handler writes to: the console, or the file at a path. -/
inductive Target where
  | console
  | file (path : Text)
deriving DecidableEq, Inhabited

/-- A handler. Two handlers with the same settings still differ in their identity. -/
structure Handler where
  id : Nat
  target : Target
  threshold : Nat
  layout : Layout
deriving DecidableEq, Inhabited

/-- What a handler writes for a record. A record that cannot be laid out is dropped, and a line with
surrogates does not get into a file. -/
def Handler.write? (h : Handler) (r : Record) : Option (Target × Text) :=
  if r.level.rank < h.threshold then none
  else match h.layout.line r, h.target with
    | .ok line, .console => some (h.target, line ++ "\n")
    | .ok line, .file _ => line.string?.map fun s => (h.target, s ++ "\n")
    | .error _, _ => none

/-- The state of the loggers. `handlers`, `threshold` and `propagates` are those of the logger at
the top; a threshold of zero stands for the one of the surroundings, which have no handlers.
`installed` is what the last setup has made, whether or not it came to put it in place, and
`decisions` tells for loggers and levels whether records have been found to matter since the
threshold was set. `lastResort` is the level from which on a record that no handler gets is written
all the same. Without one, the first such record is reported as unhandled, and `complained` tells
whether that has happened. -/
structure Hub where
  handlers : List Handler := []
  installed : List (Nat × Target) := []
  nextHandler : Nat := 0
  loggers : List Text := []
  decisions : List ((Text × Level) × Bool) := []
  threshold : Nat := 0
  propagates : Bool := true
  lastResort : Option Level := some .warning
  complained : Bool := false
deriving DecidableEq, Inhabited

/-- Why a name stands for no level: it stands for something else. -/
inductive LevelError where
  | unknown (text : String)
  | notALevel
deriving DecidableEq

def LevelError.message : LevelError → Text
  | unknown text => s!"Unknown level: {quoteText text}"
  | notALevel => "not a level"

/-- Why the log cannot be set up. Opening a file has faults of its own. -/
inductive SetupError (Fault : Type) where
  | file (cause : Fault)
  | level (cause : LevelError)
deriving DecidableEq

/-- The ranks that names in capitals stand for. -/
def namedRanks : List (String × Nat) :=
  [("NOTSET", 0), ("DEBUG", 10), ("INFO", 20), ("WARN", 30), ("WARNING", 30), ("ERROR", 40),
    ("FATAL", 50), ("CRITICAL", 50)]

/-- The rank that a name stands for without regard to case. Unknown names stand for that of
information; two names belong to the line formats and are refused. -/
def rankNamed (name : Text) : Except LevelError Nat :=
  match namedRanks.lookup (capitals name) with
  | some rank => .ok rank
  | none =>
    if capitals name = "BASIC_FORMAT" then
      .error (.unknown "%(levelname)s:%(name)s:%(message)s")
    else if capitals name = "_STYLES" then .error .notALevel
    else .ok 20

/-- The path of the file that a configuration asks for; an empty path asks for none. -/
def requestedPath? (config : LoggingConfig) : Option Text :=
  config.logFile.filter fun path => !path.isEmpty

def requestedLayout (config : LoggingConfig) : Layout :=
  if config.structured then .structured else .standard

namespace Hub

/-- A logger of a name is there from now on. -/
def register (hub : Hub) (name : Text) : Hub :=
  if hub.loggers.contains name then hub else { hub with loggers := name :: hub.loggers }

/-- Takes the handlers down that the last setup has made. -/
def takeDown (hub : Hub) : Hub :=
  { hub with
    handlers := hub.handlers.filter fun h => !hub.installed.any fun (id, _) => id = h.id
    installed := [] }

/-- Makes a handler, which is not in place yet. -/
def make (hub : Hub) (target : Target) : Hub :=
  { hub with
    installed := hub.installed ++ [(hub.nextHandler, target)]
    nextHandler := hub.nextHandler + 1 }

/-- The old handlers are down and the one for the console is made. -/
def renewed (hub : Hub) : Hub := ((hub.register rootName).takeDown).make .console

/-- Makes the handler for the file at a path, if there is one, once the file is open. -/
def makeFile {Fault : Type} (hub : Hub) (openFile : Text → Except Fault Unit) :
    Option Text → Except Fault Hub
  | none => .ok hub
  | some path => (openFile path).map fun _ => hub.make (.file path)

/-- Puts the handlers in place that have been made. -/
def putUp (hub : Hub) (rank : Nat) (layout : Layout) : Hub :=
  { hub with
    handlers := hub.handlers ++ hub.installed.map fun (id, target) => ⟨id, target, rank, layout⟩
    threshold := rank
    propagates := false
    decisions := [] }

/-- Sets up the log on a system that opens files. The old handlers are gone even if the
configuration is refused. -/
def setup {Fault : Type} (hub : Hub) (openFile : Text → Except Fault Unit)
    (config : LoggingConfig) : Except (SetupError Fault) Unit × Hub :=
  let hub := hub.renewed
  match hub.makeFile openFile (requestedPath? config) with
  | .error e => (.error (.file e), hub)
  | .ok hub =>
    match rankNamed config.level with
    | .error e => (.error (.level e), hub)
    | .ok rank => (.ok (), hub.putUp rank (requestedLayout config))

/-- The rank that a record of a logger must have. -/
def effectiveThreshold (hub : Hub) (name : Text) : Int :=
  if Hierarchy.isBelowRoot hub.loggers name ∧ hub.threshold ≠ 0 then hub.threshold
  else Level.warning.rank

/-- Whether records of a level matter to a logger. What has been found once stays so. -/
def isEnabled (hub : Hub) (name : Text) (level : Level) : Bool :=
  match hub.decisions.lookup (name, level) with
  | some known => known
  | none => hub.effectiveThreshold name ≤ level.rank

/-- Remembers whether records of a level matter to a logger. -/
def remember (hub : Hub) (name : Text) (level : Level) : Hub :=
  { hub with decisions := ((name, level), hub.isEnabled name level) :: hub.decisions }

/-- The loggers once one of them is asked about a record. -/
def asked (hub : Hub) (r : Record) : Hub := (hub.register r.logger).remember r.logger r.level

/-- The handlers that records of a logger get to. -/
def handlersFor (hub : Hub) (name : Text) : List Handler :=
  if Hierarchy.isBelowRoot hub.loggers name then hub.handlers else []

/-- Leaves a record that no handler gets to the last resort, which writes its bare message on the
console. -/
def leave (hub : Hub) (r : Record) : List (Target × Text) × Hub :=
  match hub.lastResort with
  | some least =>
    match r.bareLine with
    | .ok line => (if least.rank ≤ r.level.rank then [(.console, line ++ "\n")] else [], hub)
    | .error _ => ([], hub)
  | none =>
    if hub.complained then ([], hub)
    else
      ([(.console, "No handlers could be found for logger \"" ++ r.logger ++ "\"\n")],
        { hub with complained := true })

/-- Hands a record to the handlers: what is written where, in order. -/
def log (hub : Hub) (r : Record) : List (Target × Text) × Hub :=
  let hub := hub.asked r
  if !hub.isEnabled r.logger r.level then ([], hub)
  else if (hub.handlersFor r.logger).isEmpty then hub.leave r
  else ((hub.handlersFor r.logger).filterMap (·.write? r), hub)

end Hub

/-- A logger that adds its own context to every entry. -/
structure ContextLogger where
  name : Text
  context : Context
deriving Inhabited

namespace ContextLogger

/-- A logger of the library by its name, with a context. -/
def named (name : Text) (context : Context) : ContextLogger := ⟨loggerName name, context⟩

/-- An entry of this logger. Context given with the entry is laid over that of the logger. -/
def entry (l : ContextLogger) (level : Level) (message : Text) (extra : Context := []) : Entry :=
  { level, logger := l.name, message, context := some (l.context.merge extra) }

end ContextLogger

end Semijoin.Logging
