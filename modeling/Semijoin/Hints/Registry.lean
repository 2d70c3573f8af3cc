import Semijoin.Hints.Record
import Semijoin.Logging.Entry
import Semijoin.Plan.Basic

/-!
# Hint registry

Which hint record belongs to which plan node. Nodes are told apart by identity, so two nodes that
look the same may have different hints. A record may be attached to several nodes, and a change to
it is then seen at all of them; for this the records have identities of their own.
-/

namespace Semijoin

/-- Enters a value under a number. A number that is there keeps its place. -/
def putAt {α : Type} (xs : List (Nat × α)) (key : Nat) (value : α) : List (Nat × α) :=
  match xs with
  | [] => [(key, value)]
  | (k, v) :: xs => if k = key then (key, value) :: xs else (k, v) :: putAt xs key value

/-- Hint records by record identity, and the record of each node by node identity. -/
structure HintRegistry where
  records : List (Nat × HintRecord) := []
  entries : List (Nat × Nat) := []
  nextRecord : Nat := 0
deriving Inhabited

/-- Why hints could not be applied to a node. A refusal can hold an integer that is too long to be
written. -/
inductive ApplyError where
  | unknownHint (name : Text)
  | hint (cause : HintError)
  | tooLong

def ApplyError.unknownHintMessage (name : Text) : Text :=
  "Unknown hint '" ++ name ++ "', expected one of: " ++ ", ".intercalate (Hint.all.map Hint.name)

namespace HintRegistry

/-- The contents of a record. -/
def record (g : HintRegistry) (r : Nat) : HintRecord := (g.records.lookup r).getD {}

/-- The record attached to a node. -/
def recordOf? (g : HintRegistry) (node : Plan) : Option Nat := g.entries.lookup node.id

/-- The hints of a node. -/
def get? (g : HintRegistry) (node : Plan) : Option HintRecord := (g.recordOf? node).map g.record

def contains (g : HintRegistry) (node : Plan) : Bool := (g.recordOf? node).isSome

/-- The number of nodes that have a record. -/
def size (g : HintRegistry) : Nat := g.entries.length

/-- A new empty record that no node has yet. -/
def newRecord (g : HintRegistry) : Nat × HintRegistry :=
  (g.nextRecord,
    { g with records := putAt g.records g.nextRecord {}, nextRecord := g.nextRecord + 1 })

/-- Attaches a record to a node in place of the one it had. -/
def attach (g : HintRegistry) (node : Plan) (r : Nat) : HintRegistry :=
  { g with entries := putAt g.entries node.id r }

/-- The record of a node, which is a new one if it had none. -/
def recordFor (g : HintRegistry) (node : Plan) : Nat × HintRegistry :=
  match g.recordOf? node with
  | some r => (r, g)
  | none => let (r, g) := g.newRecord; (r, g.attach node r)

/-- Takes the record away from a node. -/
def discard (g : HintRegistry) (node : Plan) : HintRegistry :=
  { g with entries := g.entries.filter (·.1 ≠ node.id) }

/-- Sets one hint of a record. -/
def set (g : HintRegistry) (r : Nat) (hint : Hint) (value : Value) :
    Except HintError HintRegistry :=
  ((g.record r).set hint value).map fun h => { g with records := putAt g.records r h }

/-- What came of applying hints: the registry they were applied to, the first error if there was
one, and what was logged. -/
structure Applied where
  registry : HintRegistry
  error : Option ApplyError := none
  log : List Logging.Entry := []

/-- Sets hints of a record in order until one is refused. -/
def setAll (g : HintRegistry) (node : Plan) (r : Nat) : List (Text × Value) → Applied
  | [] => { registry := g }
  | (name, value) :: rest =>
    match Hint.ofName? name with
    | none => { registry := g, error := some (.unknownHint name) }
    | some hint =>
      match g.set r hint value with
      | .ok g => setAll g node r rest
      | .error .tooLarge => { registry := g, error := some (.hint .tooLarge) }
      | .error e =>
        if e.isWritable && node.hasWritableLabel then
          { registry := g
            error := some (.hint e)
            log := [{
              level := .warning
              logger := Logging.loggerName "optimizer.hints"
              message := "Rejected hint " ++ name ++ "=" ++ value.quoted ++ " for " ++
                node.label }] }
        else { registry := g, error := some .tooLong }

/-- Sets several hints of a node, which gets a record if it had none. Hints before the first one
refused stay set. -/
def apply (g : HintRegistry) (node : Plan) (values : List (Text × Value)) : Nat × Applied :=
  let (r, g) := g.recordFor node
  (r, g.setAll node r values)

def text (g : HintRegistry) : String := s!"CostHintRegistry(nodes={g.size})"

end HintRegistry

end Semijoin
