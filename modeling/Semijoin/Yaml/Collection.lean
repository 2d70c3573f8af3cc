import Semijoin.Value.Slots
import Semijoin.Yaml.Merge
import Semijoin.Yaml.Scalar

/-!
# Collections of a document

The lists, maps and sets that the nodes of a document stand for. They are built level by level from
the root: the scalars of a collection are read when its turn comes, and the collections in it are
put in line. So of two faults the one on the higher level is found first.
-/

namespace Semijoin.Yaml

/-- A part of a collection: a value without parts, or the collection of a node. -/
inductive Part where
  | value (v : Value)
  | node (r : Ref)
deriving Inhabited

/-- A key of a map. What is no number equals nothing, not even itself, but two keys of one origin
are the same key. -/
structure Key where
  value : Value
  origin : Option Ref := none

namespace Key

def isNaN (k : Key) : Bool :=
  match k.value with
  | .float x => x.isNaN
  | _ => false

def same (j k : Key) : Bool :=
  j.value.sameScalar k.value || (j.isNaN && k.isNaN && j.origin = k.origin)

end Key

inductive Collection where
  | list (items : List Part)
  | pairs (entries : List (Part × Part))
  | set (keys : List Key)
  | map (entries : List (Key × Part))
deriving Inhabited

namespace Collection

/-- Enters a part under a key. A key that is there keeps its place and takes the new part. -/
def putEntry (entries : List (Key × Part)) (key : Key) (part : Part) : List (Key × Part) :=
  if entries.any (·.1.same key) then
    entries.map fun entry => if entry.1.same key then (entry.1, part) else entry
  else entries ++ [(key, part)]

end Collection

/-- The graph with the values of the nodes that have been read, the collections that have been
found, in order, and those that have been built. -/
structure Building where
  graph : Graph
  values : Array (Option Key)
  line : Array Ref := #[]
  built : Array (Option Collection)

abbrev Builder := StateT Building (Except Fault)

namespace Builder

/-- Changes the graph. -/
def change {α : Type} (c : Change α) : Builder α := fun s =>
  (c.run s.graph).map fun (a, graph) => (a, { s with graph })

def node (r : Ref) : Builder Node := return (← get).graph.node r

/-- The text of a scalar. A mapping with a default stands for the text of that. -/
def scalarText : (fuel : Nat) → Ref → Builder Text
  | 0, _ => throw .tooDeep
  | fuel + 1, r => do
    let g := (← get).graph
    match (g.node r).content with
    | .scalar text => return text
    | .sequence _ => throw .malformed
    | .mapping entries =>
      match entries.find? fun (key, _) => (g.node key).tag = .value with
      | some (_, r) => scalarText fuel r
      | none => throw .malformed

/-- Whether the value of a tag is a collection. -/
def isCollection (tag : Tag) : Bool :=
  [Tag.seq, .map, .set, .omap, .pairs].contains tag

/-- Whether a text spells no number. -/
def spellsNaN (text : Text) : Bool :=
  (Scalar.takeSign (Scalar.withoutUnderscores text).toLower).2 = (".nan" : Text)

/-- Reads a node that is no collection. A time has to be a scalar itself. All numbers that are
spelled as being none have the same origin. -/
def readValue (tag : Tag) (r : Ref) : Builder Key := do
  let text ← scalarText ((← get).graph.nodes.size + 1) r
  if tag = .timestamp ∧ (← node r).isMapping then throw .timeOfMapping
  let key : Key := ⟨← Scalar.value tag text, if spellsNaN text then none else some r⟩
  modify fun s => { s with values := s.values.setIfInBounds r (some key) }
  return key

/-- What a node that is no collection stands for; it is read when it is met first. Signs and nodes
of an unknown kind stand for nothing. -/
def scalar (tag : Tag) (r : Ref) : Builder Key := do
  if tag = .merge ∨ tag = .value ∨ tag = .unknown then throw .malformed
  match (← get).values[r]?.getD none with
  | some key => return key
  | none => readValue tag r

/-- The value or collection of a node. A collection is put in line when it is met first. -/
def part (r : Ref) : Builder Part := do
  let tag := (← node r).tag
  if isCollection tag then
    if !(← get).line.contains r then modify fun s => { s with line := s.line.push r }
    return .node r
  else return .value (← scalar tag r).value

/-- The key that a node stands for; a collection cannot be one. -/
def key (r : Ref) : Builder Key := do
  let tag := (← node r).tag
  if isCollection tag then throw .malformed else scalar tag r

def parts : List Ref → Builder (List Part)
  | [] => return []
  | r :: rs => do
    let p ← part r
    return p :: (← parts rs)

/-- The entries of a map, entered one after the other. -/
def mapEntries (done : List (Key × Part)) : List (Ref × Ref) → Builder (List (Key × Part))
  | [] => return done
  | (k, v) :: entries => do
    let key ← key k
    let p ← part v
    mapEntries (Collection.putEntry done key p) entries

/-- The entries of mappings that have one each. -/
def pairEntries : List Ref → Builder (List (Part × Part))
  | [] => return []
  | r :: rs => do
    match (← node r).content with
    | .mapping [(k, v)] => do
      let key ← part k
      let p ← part v
      return (key, p) :: (← pairEntries rs)
    | _ => throw .malformed

/-- The collection of a node. -/
def collection (r : Ref) : Builder Collection := do
  let ⟨tag, content⟩ ← node r
  match tag, content with
  | .seq, .sequence items => .list <$> parts items
  | .omap, .sequence items | .pairs, .sequence items => .pairs <$> pairEntries items
  | .map, .mapping _ => do
    change (Merge.run r)
    .map <$> mapEntries [] ((← get).graph.entries r)
  | .set, .mapping _ => do
    change (Merge.run r)
    let entries ← mapEntries [] ((← get).graph.entries r)
    return .set (Slots.listed Key.value (entries.map (·.1)))
  | _, _ => throw .malformed

/-- Builds the collections in line from the one at a position on. -/
def buildFrom : (fuel : Nat) → (position : Nat) → Builder Unit
  | 0, _ => return
  | fuel + 1, position => do
    match (← get).line[position]? with
    | none => return
    | some r =>
      let c ← collection r
      modify fun s => { s with built := s.built.setIfInBounds r (some c) }
      buildFrom fuel (position + 1)

/-- Builds all that a node stands for. Every node is put in line at most once. -/
def build (root : Ref) : Builder Part := do
  let p ← part root
  buildFrom ((← get).graph.nodes.size + 1) 0
  return p

end Builder

/-- The collections of a document. -/
structure Collections where
  built : Array (Option Collection)

namespace Collections

/-- The collection of a node. -/
def get (cs : Collections) (r : Ref) : Collection := (cs.built[r]?.getD none).getD default

/-- The collection of a node with the values of its parts. -/
def valueOf {m : Type → Type} [Monad m] (unfold : Part → m Value) : Collection → m Value
  | .list items => .list <$> items.mapM unfold
  | .pairs entries =>
    .list <$> entries.mapM fun (k, v) => return .tuple [← unfold k, ← unfold v]
  | .set keys => return .set (keys.map (·.value))
  | .map entries =>
    .map <$> entries.mapM fun (k, p) => return (k.value, ← unfold p)

def isMap : Collection → Bool
  | .map _ => true
  | _ => false

/-- Values that have been unfolded already, and whether a collection has been met inside itself
since it was last asked. -/
structure Unfolding where
  known : Array (Option Value)
  met : Bool := false

/-- The value of a part inside the collections on a path. A collection that is met inside itself is
cut off there. Other values do not depend on the path and are shared. -/
def unfold (cs : Collections) : (fuel : Nat) → (path : List Ref) → Part → StateM Unfolding Value
  | _, _, .value v => return v
  | 0, _, .node _ => return .null
  | fuel + 1, path, .node r => do
    let s ← MonadState.get
    match s.known[r]?.getD none with
    | some v => return v
    | none =>
      if path.contains r then
        set { s with met := true }
        return .again (isMap (cs.get r))
      else
        set { s with met := false }
        let v ← valueOf (unfold cs fuel (r :: path)) (cs.get r)
        modify fun t =>
          if t.met then t
          else { known := t.known.setIfInBounds r (some v), met := s.met }
        return v

/-- The value of a part of which the outer levels are going to be taken apart: what lies below is
unfolded on its own. -/
def unfoldBelow (cs : Collections) : (levels : Nat) → Part → StateM Unfolding Value
  | levels + 1, .node r => valueOf (unfoldBelow cs levels) (cs.get r)
  | _, p => unfold cs (cs.built.size + 1) [] p

/-- The value of a part of which the outer levels are going to be taken apart. -/
def value (cs : Collections) (levels : Nat) (p : Part) : Value :=
  (unfoldBelow cs levels p |>.run { known := cs.built.map fun _ => none }).1

end Collections

/-- The value that a node of a graph stands for. -/
def Graph.value (g : Graph) (levels : Nat) (root : Ref) : Except Fault Value := do
  let values := g.nodes.map fun _ => (none : Option Key)
  let built := g.nodes.map fun _ => (none : Option Collection)
  let (p, s) ← (Builder.build root).run { graph := g, values, built }
  return Collections.value ⟨s.built⟩ levels p

end Semijoin.Yaml
