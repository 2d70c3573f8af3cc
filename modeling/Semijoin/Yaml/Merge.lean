import Semijoin.Yaml.Graph

/-!
# Merged entries

A merge key brings the entries of other mappings in front of those of its own mapping, so that the
own ones count more. Of several mappings in a sequence the first counts most.
-/

namespace Semijoin.Yaml

/-- A step that can change a graph and can fail. -/
abbrev Change := StateT Graph (Except Fault)

namespace Graph

/-- The entries of a mapping; of anything else there are none. -/
def entries (g : Graph) (r : Ref) : List (Ref × Ref) :=
  match (g.node r).content with
  | .mapping entries => entries
  | _ => []

/-- The number of items and entries of all collections. -/
def size (g : Graph) : Nat :=
  g.nodes.foldl (fun n node => match node.content with
    | .scalar _ => n
    | .sequence items => n + items.length
    | .mapping entries => n + entries.length) 0

end Graph

namespace Merge

/-- Takes the sign for a default as text where it is a key. -/
def settleKeys (r : Ref) : Change Unit :=
  modify fun g => (g.entries r).foldl (fun g (key, _) =>
    if (g.node key).tag = .value then g.setTag key .str else g) g

/-- Takes the first merge key out of a mapping: its value, if there is one. -/
def takeKey? (r : Ref) : Change (Option Ref) := do
  let g ← get
  let entries := g.entries r
  match entries.findIdx? fun (key, _) => (g.node key).tag = .merge with
  | none => return none
  | some i =>
    set (g.setContent r (.mapping (entries.eraseIdx i)))
    return (entries[i]?).map (·.2)

mutual

/-- Merges what the merge keys of a mapping bring in, down to the mappings that are brought in. A
key is taken out before its value is looked at, so a mapping may merge itself. -/
def flatten : (fuel : Nat) → Ref → Change Unit
  | 0, _ => throw .malformed
  | fuel + 1, r => do
    settleKeys r
    let merged ← takeAll fuel r
    if !merged.isEmpty then
      modify fun g => g.setContent r (.mapping (merged ++ g.entries r))

/-- Takes all merge keys out of a mapping: the entries that they bring in. -/
def takeAll : (fuel : Nat) → Ref → Change (List (Ref × Ref))
  | 0, _ => throw .malformed
  | fuel + 1, r => do
    match ← takeKey? r with
    | none => return []
    | some source =>
      let front ← broughtBy fuel source
      return front ++ (← takeAll fuel r)

/-- The entries that the value of a merge key brings in. -/
def broughtBy : (fuel : Nat) → Ref → Change (List (Ref × Ref))
  | 0, _ => throw .malformed
  | fuel + 1, source => do
    match ((← get).node source).content with
    | .mapping _ => ofMapping fuel source
    | .sequence items => return (← ofItems fuel items).reverse.flatten
    | .scalar _ => throw .malformed

/-- The entries of each of the mappings. -/
def ofItems : (fuel : Nat) → List Ref → Change (List (List (Ref × Ref)))
  | 0, _ => throw .malformed
  | _ + 1, [] => return []
  | fuel + 1, item :: items => do
    let entries ← ofMapping fuel item
    return entries :: (← ofItems fuel items)

/-- The entries of a mapping after its own merge keys. -/
def ofMapping : (fuel : Nat) → Ref → Change (List (Ref × Ref))
  | 0, _ => throw .malformed
  | fuel + 1, r => do
    match ((← get).node r).content with
    | .mapping _ =>
      flatten fuel r
      return (← get).entries r
    | _ => throw .malformed

end

/-- Merges what the merge keys of a mapping bring in. Every key is taken once, so fuel beyond the
number of entries is not used. -/
def run (r : Ref) : Change Unit := do
  flatten (8 * (← get).size + 8) r

end Merge

end Semijoin.Yaml
