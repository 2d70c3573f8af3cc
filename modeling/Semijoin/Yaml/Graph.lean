import Semijoin.Yaml.Tag
import Semijoin.Yaml.Token

/-!
# Graphs of YAML documents

A document as a graph of scalars, sequences and mappings, read from its tokens. A missing item, key
or value is an empty plain scalar. An anchor names its node from the start of the node on and is
given once, so its uses share the node and can lie inside it.
-/

namespace Semijoin.Yaml

/-- The place of a node in a graph. -/
abbrev Ref := Nat

inductive Content where
  | scalar (text : Text)
  | sequence (items : List Ref)
  | mapping (entries : List (Ref × Ref))
deriving Inhabited

structure Node where
  tag : Tag
  content : Content
deriving Inhabited

def Node.isMapping (n : Node) : Bool :=
  match n.content with
  | .mapping _ => true
  | _ => false

/-- The nodes of a document. -/
structure Graph where
  nodes : Array Node := #[]

namespace Graph

/-- The node at a place. -/
def node (g : Graph) (r : Ref) : Node := g.nodes[r]?.getD default

def setContent (g : Graph) (r : Ref) (content : Content) : Graph :=
  ⟨g.nodes.modify r fun node => { node with content }⟩

def setTag (g : Graph) (r : Ref) (tag : Tag) : Graph :=
  ⟨g.nodes.modify r fun node => { node with tag }⟩

end Graph

namespace Reader

/-- The most levels that nodes can be nested in. -/
def maxDepth : Nat := 491

/-- What is left to read, the nodes that have been read, those that have an anchor, and what the
handles of tags stand for. -/
structure State where
  stream : Token.Stream
  graph : Graph := {}
  anchors : List (String × Ref) := []
  handles : List (String × String) := []

/-- What the handles of tags stand for without directives. -/
def defaultHandles : List (String × String) := [("!", "!"), ("!!", Tag.commonStart)]

end Reader

abbrev Reader := StateT Reader.State (Except Fault)

namespace Reader

def fail {α : Type} : Reader α := throw .malformed

/-- The next token, unless the text ends. -/
def peek? : Reader (Option Token) := do
  match (← get).stream with
  | ⟨t :: _, _⟩ => return some t
  | ⟨[], some fault⟩ => throw fault
  | ⟨[], none⟩ => return none

def skip : Reader Unit :=
  modify fun s => { s with stream := { s.stream with tokens := s.stream.tokens.tail } }

/-- Takes a token if it comes next. -/
def accept (t : Token) : Reader Bool := do
  if (← peek?) = some t then
    skip
    return true
  else return false

def expect (t : Token) : Reader Unit := do
  if !(← accept t) then fail

/-- Whether one of these tokens comes next. -/
def nextIn (ts : List Token) : Reader Bool := return (← peek?).any ts.contains

/-- Adds a node. -/
def add (node : Node) : Reader Ref :=
  modifyGet fun s => (s.graph.nodes.size, { s with graph := ⟨s.graph.nodes.push node⟩ })

/-- The node where one is missing. -/
def missing : Reader Ref := add ⟨.null, .scalar ⟨[]⟩⟩

/-- The anchor and the tag of a node. -/
structure Properties where
  anchor : Option String := none
  tag : Option WrittenTag := none

/-- Takes the properties of a node, in either order. -/
def properties : Reader Properties := do
  match ← peek? with
  | some (.anchor name) =>
    skip
    match ← peek? with
    | some (.tag t) =>
      skip
      return ⟨some name, some t⟩
    | _ => return ⟨some name, none⟩
  | some (.tag t) =>
    skip
    match ← peek? with
    | some (.anchor name) =>
      skip
      return ⟨some name, some t⟩
    | _ => return ⟨none, some t⟩
  | _ => return {}

/-- The full name of the tag of a node. A lone exclamation mark counts as none. -/
def tagName? (t : Option WrittenTag) : Reader (Option String) := do
  match t with
  | none => return none
  | some ⟨none, rest⟩ => return some rest
  | some ⟨some handle, rest⟩ =>
    match (← get).handles.lookup handle with
    | some start => return some (start ++ rest)
    | none => fail

/-- Adds a node under its anchor, which must be new. -/
def define (anchor : Option String) (node : Node) : Reader Ref := do
  match anchor with
  | none => add node
  | some name =>
    if (← get).anchors.any (·.1 = name) then fail
    let r ← add node
    modify fun s => { s with anchors := (name, r) :: s.anchors }
    return r

/-- The tag of a scalar: its own, or that of its spelling if it is plain or has an exclamation mark
in place of a tag. -/
def scalarTag (name : Option String) (text : Text) (plain : Bool) : Tag :=
  match name with
  | none => if plain then .ofSpelling text.toChars else .str
  | some name => if name = "!" then .ofSpelling text.toChars else .ofName name

/-- The tag of a collection: its own or the one for its form. -/
def collectionTag (name : Option String) (default : Tag) : Tag :=
  match name with
  | none => default
  | some name => if name = "!" then default else .ofName name

/-- Adds a collection under its anchor, reads its parts and puts them in. -/
def collect {α : Type} (anchor : Option String) (tag : Tag) (content : List α → Content)
    (parts : Reader (List α)) : Reader Ref := do
  let r ← define anchor ⟨tag, content []⟩
  let parts ← parts
  modify fun s => { s with graph := s.graph.setContent r (content parts) }
  return r

/-- Where a node stands. In a block mapping, a sequence may stand at the indentation of its key. -/
inductive Place where
  | block
  | entryOfBlock
  | flow
deriving DecidableEq

mutual

/-- Reads a node on a level. Fuel is spent on every token and once more on every node. -/
def read : (fuel : Nat) → (depth : Nat) → Place → Reader Ref
  | 0, _, _ => fail
  | fuel + 1, depth, place => do
    if maxDepth < depth then throw .tooDeep
    match ← peek? with
    | some (.anchorUse name) =>
      skip
      match (← get).anchors.lookup name with
      | some r => return r
      | none => fail
    | _ =>
      let p ← properties
      let name ← tagName? p.tag
      let sequence := collect p.anchor (collectionTag name .seq) .sequence
      let mapping := collect p.anchor (collectionTag name .map) .mapping
      match ← peek?, place with
      | some (.scalar text plain), _ =>
        skip
        define p.anchor ⟨scalarTag name text (plain && p.tag.isNone), .scalar text⟩
      | some .openSequence, _ =>
        skip
        sequence (flowItems fuel depth true)
      | some .openMapping, _ =>
        skip
        mapping (flowEntries fuel depth true)
      | some .entry, .entryOfBlock => sequence (itemsOfEntry fuel depth)
      | some .blockSequence, .block | some .blockSequence, .entryOfBlock =>
        skip
        sequence (blockItems fuel depth)
      | some .blockMapping, .block | some .blockMapping, .entryOfBlock =>
        skip
        mapping (blockEntries fuel depth)
      | _, _ =>
        if p.anchor.isSome || p.tag.isSome then
          define p.anchor ⟨scalarTag name ⟨[]⟩ p.tag.isNone, .scalar ⟨[]⟩⟩
        else fail

/-- Reads a part of a node on a level, unless one of these tokens shows that it is missing. -/
def readUnless : (fuel : Nat) → (depth : Nat) → Place → List Token → Reader Ref
  | 0, _, _, _ => fail
  | fuel + 1, depth, place, ends => do
    if ← nextIn ends then missing else read fuel (depth + 1) place

/-- The items of a block sequence, with its end. -/
def blockItems : (fuel : Nat) → (depth : Nat) → Reader (List Ref)
  | 0, _ => fail
  | fuel + 1, depth => do
    if ← accept .blockEnd then return []
    expect .entry
    let item ← readUnless fuel depth .block [.entry, .blockEnd]
    return item :: (← blockItems fuel depth)

/-- The items of a sequence at the indentation of its key. -/
def itemsOfEntry : (fuel : Nat) → (depth : Nat) → Reader (List Ref)
  | 0, _ => fail
  | fuel + 1, depth => do
    if !(← accept .entry) then return []
    let item ← readUnless fuel depth .block [.entry, .key, .value, .blockEnd]
    return item :: (← itemsOfEntry fuel depth)

/-- The entries of a block mapping, with its end. -/
def blockEntries : (fuel : Nat) → (depth : Nat) → Reader (List (Ref × Ref))
  | 0, _ => fail
  | fuel + 1, depth => do
    if ← accept .blockEnd then return []
    expect .key
    let ends := [Token.key, .value, .blockEnd]
    let key ← readUnless fuel depth .entryOfBlock ends
    let value ← if ← accept .value then readUnless fuel depth .entryOfBlock ends else missing
    return (key, value) :: (← blockEntries fuel depth)

/-- A key of a flow collection after its mark, and its value. -/
def flowPair : (fuel : Nat) → (depth : Nat) → (close : Token) → Reader (Ref × Ref)
  | 0, _, _ => fail
  | fuel + 1, depth, close => do
    let key ← readUnless fuel depth .flow [.value, .comma, close]
    let value ← if ← accept .value then readUnless fuel depth .flow [.comma, close] else missing
    return (key, value)

/-- The items of a flow sequence, with its closing bracket. A pair stands for a mapping. -/
def flowItems : (fuel : Nat) → (depth : Nat) → (first : Bool) → Reader (List Ref)
  | 0, _, _ => fail
  | fuel + 1, depth, first => do
    if ← accept .closeSequence then return []
    if !first then expect .comma
    if ← accept .closeSequence then return []
    let item ←
      if ← accept .key then
        let pair := flowPair fuel (depth + 1) .closeSequence
        collect none .map .mapping ((fun pair => [pair]) <$> pair)
      else read fuel (depth + 1) .flow
    return item :: (← flowItems fuel depth false)

/-- The entries of a flow mapping, with its closing bracket. -/
def flowEntries : (fuel : Nat) → (depth : Nat) → (first : Bool) → Reader (List (Ref × Ref))
  | 0, _, _ => fail
  | fuel + 1, depth, first => do
    if ← accept .closeMapping then return []
    if !first then expect .comma
    if ← accept .closeMapping then return []
    let pair ←
      if ← accept .key then flowPair fuel depth .closeMapping
      else do
        let key ← read fuel (depth + 1) .flow
        pure (key, ← missing)
    return pair :: (← flowEntries fuel depth false)

end

/-- What directives have said: whether there was one of the version, and the handles. -/
structure Directives where
  versioned : Bool := false
  handles : List (String × String) := []

/-- Takes the directives in front of a document. A version has to be 1, and nothing is said twice.
-/
def directives : (fuel : Nat) → Directives → Reader Directives
  | 0, _ => fail
  | fuel + 1, ds => do
    match ← peek? with
    | some (.directive d) =>
      skip
      match d with
      | .unknown => directives fuel ds
      | .version major =>
        if ds.versioned || major ≠ 1 then fail
        directives fuel { ds with versioned := true }
      | .handle name start =>
        if ds.handles.any (·.1 = name) then fail
        directives fuel { ds with handles := (name, start) :: ds.handles }
    | _ => return ds

/-- Reads the node of a document that is marked by directives or by a marker. -/
def markedDocument (fuel : Nat) : Reader Ref := do
  let ds ← directives fuel {}
  expect .documentStart
  modify fun s => { s with handles := ds.handles ++ defaultHandles }
  match ← peek? with
  | none | some .documentStart | some .documentEnd | some (.directive _) => missing
  | _ => read fuel 0 .block

/-- Passes over the ends of a document. -/
def skipEnds : (fuel : Nat) → Reader Unit
  | 0 => fail
  | fuel + 1 => do if ← accept .documentEnd then skipEnds fuel

/-- The node of the only document, unless there is none. -/
def document? : Reader (Option Ref) := do
  let fuel := 3 * (← get).stream.tokens.length + 3
  match ← peek? with
  | none => return none
  | first =>
    let isMarked := match first with
      | some .documentStart | some (.directive _) => true
      | _ => false
    let root ← if isMarked then markedDocument fuel else do
      modify fun s => { s with handles := defaultHandles }
      read fuel 0 .block
    skipEnds fuel
    if (← peek?).isSome then
      let _ ← directives fuel {}
      fail
    return some root

end Reader

/-- The graph of a document with these tokens, and its root, unless there is no document. -/
def Graph.ofTokens? (stream : Token.Stream) : Except Fault (Option (Graph × Ref)) :=
  (Reader.document?.run { stream }).map fun (root, s) => root.map (s.graph, ·)

end Semijoin.Yaml
