import Semijoin.Hints.Registry

/-!
# Explaining plans

A plan as text, one line for each node with the depth shown by indentation, and as a JSON document
with one object for each node. Both show the hints a node is known to have.
-/

namespace Semijoin.Plan

/-- What a node does, apart from its inputs. -/
def detail : Plan → Text
  | p@(scan _ relation _) =>
    "relation=" ++ relation ++ " columns=[" ++ Text.join ", " p.columnNames ++ "]"
  | filter _ _ predicate => "predicate=" ++ predicate.sql
  | project _ _ outputs =>
    let items : List Text := outputs.map fun o => o.expr.sql ++ " AS " ++ o.name
    "exprs=[" ++ Text.join ", " items ++ "]"
  | join _ kind _ _ condition =>
    "type=" ++ kind.name ++ " condition=" ++ (condition.map Expr.sql).getD "TRUE"
  | foreign .. => ""

/-- The known hints of a node. -/
def knownHints (hints : Plan → Option HintRecord) (p : Plan) : List (String × Value) :=
  ((hints p).map HintRecord.known).getD []

/-- The line of a node without its indentation. -/
def header (hints : Plan → Option HintRecord) (p : Plan) : Text :=
  let known := p.knownHints hints
  let detail : Text := if p.detail.isEmpty then "" else " " ++ p.detail
  let hinted : Text := if known.isEmpty then "" else " hints=[" ++ HintRecord.pairsText known ++ "]"
  p.kindName ++ detail ++ hinted

/-- The indentation of a line. -/
def indent (depth : Nat) : String := if depth = 0 then "" else "".pushn ' ' (2 * depth) ++ "-> "

mutual

/-- The lines of a plan whose root is at a depth. -/
def lines (hints : Plan → Option HintRecord) (depth : Nat) (p : Plan) : List Text :=
  let line := indent depth ++ p.header hints
  match p with
  | scan .. => [line]
  | filter _ input _ | project _ input _ => line :: input.lines hints (depth + 1)
  | join _ _ left right _ => line :: (left.lines hints (depth + 1) ++ right.lines hints (depth + 1))
  | foreign _ _ children => line :: linesAll hints (depth + 1) children

def linesAll (hints : Plan → Option HintRecord) (depth : Nat) : List Plan → List Text
  | [] => []
  | p :: ps => p.lines hints depth ++ linesAll hints depth ps

end

@[simp] theorem linesAll_eq (hints : Plan → Option HintRecord) (depth : Nat) (ps : List Plan) :
    linesAll hints depth ps = ps.flatMap (lines hints depth) := by
  induction ps with
  | nil => rfl
  | cons p ps ih => rw [linesAll, ih, List.flatMap_cons]

theorem lines_eq (hints : Plan → Option HintRecord) (depth : Nat) (p : Plan) :
    p.lines hints depth =
      (indent depth ++ p.header hints) :: p.children.flatMap (lines hints (depth + 1)) := by
  cases p <;> simp [lines, children]

/-- The lines of a plan, if they can be written. -/
def lines? (hints : Plan → Option HintRecord) (p : Plan) : Option (List Text) :=
  if p.isWritable then some (p.lines hints 0) else none

/-- A plan as indented text, if it can be written. -/
def explain? (hints : Plan → Option HintRecord) (p : Plan) : Option Text :=
  (p.lines? hints).map (Text.join "\n")

/-- The description of a node in a JSON document: its kind, what it does, its columns and its known
hints, with the descriptions of its children. -/
inductive Document where
  | node (kind : String) (detail : Text) (schema : List Text) (hints : List (String × Value))
    (children : List Document)

mutual

/-- The document of a plan. -/
def document (hints : Plan → Option HintRecord) (p : Plan) : Document :=
  .node p.kindName p.detail p.columnNames (p.knownHints hints) <|
    match p with
    | scan .. => []
    | filter _ input _ | project _ input _ => [input.document hints]
    | join _ _ left right _ => [left.document hints, right.document hints]
    | foreign _ _ children => documents hints children

def documents (hints : Plan → Option HintRecord) : List Plan → List Document
  | [] => []
  | p :: ps => p.document hints :: documents hints ps

end

@[simp] theorem documents_eq (hints : Plan → Option HintRecord) (ps : List Plan) :
    documents hints ps = ps.map (document hints) := by
  induction ps with
  | nil => rfl
  | cons p ps ih => rw [documents, ih, List.map_cons]

theorem document_eq (hints : Plan → Option HintRecord) (p : Plan) :
    p.document hints = .node p.kindName p.detail p.columnNames (p.knownHints hints)
      (p.children.map (document hints)) := by
  cases p <;> rw [document] <;> simp [children]

/-- The document of a plan, if it can be written. -/
def document? (hints : Plan → Option HintRecord) (p : Plan) : Option Document :=
  if p.isWritable then some (p.document hints) else none

mutual

/-- A document as indented JSON at a nesting depth. -/
def Document.json (depth : Nat) : Document → String
  | .node kind detail schema hints children =>
    let hintEntries := hints.map fun (name, value) => (Text.ofString name, value.json?.getD "null")
    let own : List (Text × String) :=
      [("node", Json.quote kind), ("detail", Json.quote detail),
        ("schema", Json.indentedArray (depth + 1) (schema.map Json.quote))]
    let hinted : List (Text × String) :=
      if hints.isEmpty then [] else [("hints", Json.indentedObject (depth + 1) hintEntries)]
    let below : List (Text × String) :=
      [("children", Json.indentedArray (depth + 1) (Document.jsonList (depth + 2) children))]
    Json.indentedObject depth (own ++ hinted ++ below)

def Document.jsonList (depth : Nat) : List Document → List String
  | [] => []
  | d :: ds => d.json depth :: jsonList depth ds

end

/-- A plan as a JSON document, if it can be written. -/
def explainJson? (hints : Plan → Option HintRecord) (p : Plan) : Option String :=
  (p.document? hints).map (Document.json 0)

end Semijoin.Plan
