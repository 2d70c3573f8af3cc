import Semijoin.Expr.Columns

/-!
# Logical plans

A plan is a tree of relational operators. Each node carries an identity: two nodes built separately
differ even where they look the same, and hints are attached to identities. The functions here read
a plan; `Semijoin.Plan.Build` builds plans and checks them while doing so.
-/

namespace Semijoin

/-- An output column of a plan node. -/
structure Field where
  name : Text
  type : DataType
  nullable : Bool
deriving DecidableEq, Inhabited

def Field.text (f : Field) : Text :=
  "Field(" ++ f.name ++ ": " ++ f.type.name ++ (if f.nullable then "" else " NOT NULL") ++ ")"

inductive JoinKind where
  | inner
  | semi
  | anti
deriving DecidableEq, Inhabited

def JoinKind.name : JoinKind → String
  | inner => "INNER"
  | semi => "SEMI"
  | anti => "ANTI"

/-- Whether a join keeps or drops left rows and adds nothing to them. -/
def JoinKind.isFiltering : JoinKind → Bool
  | inner => false
  | semi | anti => true

/-- An expression that a projection computes, with the name of its column. -/
structure Output where
  expr : Expr
  name : Text
deriving Inhabited

/-- Why a foreign node is not built anew, by the name of its error. -/
structure ForeignFault where
  kind : String
deriving DecidableEq, Inhabited

/-- All that is known of a foreign node: the name of its kind, the text that stands for it in
messages, its output columns over children with given columns, and whether it can be built anew over
children with given columns. -/
structure ForeignKind where
  name : String
  label : Text := name
  schema : List (List Field) → List Field
  rebuild : List (List Field) → Except ForeignFault Unit
deriving Inhabited

/-- A logical plan. A join without a condition is a cross product. A foreign node is of a kind this
library knows nothing about; it can have any number of children. -/
inductive Plan where
  | scan (id : Nat) (relation : Text) (fields : List Field)
  | filter (id : Nat) (input : Plan) (predicate : Expr)
  | project (id : Nat) (input : Plan) (outputs : List Output)
  | join (id : Nat) (kind : JoinKind) (left right : Plan) (condition : Option Expr)
  | foreign (id : Nat) (kind : ForeignKind) (children : List Plan)
deriving Inhabited

/-- A plan may have a list of children, so induction on plans has a hypothesis for each of them. -/
@[elab_as_elim, induction_eliminator]
theorem Plan.induction {motive : Plan → Prop}
    (scan : ∀ id relation fields, motive (.scan id relation fields))
    (filter : ∀ id input predicate, motive input → motive (.filter id input predicate))
    (project : ∀ id input outputs, motive input → motive (.project id input outputs))
    (join : ∀ id kind left right condition, motive left → motive right →
      motive (.join id kind left right condition))
    (foreign : ∀ id kind children, (∀ c ∈ children, motive c) →
      motive (.foreign id kind children)) (p : Plan) : motive p :=
  Plan.rec (motive_2 := fun ps => ∀ p ∈ ps, motive p) scan filter project join foreign
    (fun _ h => nomatch h) (fun _ _ hhead htail => List.forall_mem_cons.mpr ⟨hhead, htail⟩) p

/-- The column that an output makes. -/
def Output.field (o : Output) : Field := ⟨o.name, o.expr.type, o.expr.mayBeNull⟩

namespace Plan

def id : Plan → Nat
  | scan id .. | filter id .. | project id .. | join id .. | foreign id .. => id

mutual

/-- The output columns. A semi or anti join has those of its left input. -/
@[grind =] def schema : Plan → List Field
  | scan _ _ fields => fields
  | filter _ input _ => input.schema
  | project _ _ outputs => outputs.map Output.field
  | join _ kind left right _ =>
    if kind.isFiltering then left.schema else left.schema ++ right.schema
  | foreign _ kind children => kind.schema (schemas children)

/-- The output columns of several plans. -/
def schemas : List Plan → List (List Field)
  | [] => []
  | p :: ps => p.schema :: schemas ps

end

@[simp] theorem schemas_eq (ps : List Plan) : schemas ps = ps.map schema := by
  induction ps with
  | nil => rfl
  | cons p ps ih => rw [schemas, ih, List.map_cons]

def columnNames (p : Plan) : List Text := p.schema.map Field.name

/-- The positions of the output columns. -/
def positions (p : Plan) : Positions := Positions.below p.schema.length

def children : Plan → List Plan
  | scan .. => []
  | filter _ input _ | project _ input _ => [input]
  | join _ _ left right _ => [left, right]
  | foreign _ _ children => children

mutual

/-- The number of nodes. -/
@[grind =] def size : Plan → Nat
  | scan .. => 1
  | filter _ input _ | project _ input _ => input.size + 1
  | join _ _ left right _ => left.size + right.size + 1
  | foreign _ _ children => sizes children + 1

/-- The number of nodes of several plans. -/
def sizes : List Plan → Nat
  | [] => 0
  | p :: ps => p.size + sizes ps

end

theorem size_eq_sizes (p : Plan) : p.size = sizes p.children + 1 := by
  cases p <;> simp [size, sizes, children]

theorem size_le_sizes_of_mem {ps : List Plan} {p : Plan} (hp : p ∈ ps) : p.size ≤ sizes ps := by
  induction ps with
  | nil => exact nomatch hp
  | cons q ps ih =>
    rw [sizes]
    rcases List.mem_cons.mp hp with rfl | hp
    · omega
    · have := ih hp
      omega

theorem size_lt_of_mem_children {p c : Plan} (hc : c ∈ p.children) : c.size < p.size := by
  rw [p.size_eq_sizes]
  exact Nat.lt_succ_of_le (size_le_sizes_of_mem hc)

/-- The name of the kind of node. -/
def kindName : Plan → String
  | scan .. => "Scan"
  | filter .. => "Filter"
  | project .. => "Project"
  | join .. => "Join"
  | foreign _ kind _ => kind.name

/-- The text that stands for a node in messages. -/
def label : Plan → Text
  | scan _ relation fields => "Scan(" ++ relation ++ s!", cols={fields.length})"
  | filter _ _ predicate => "Filter(" ++ predicate.sql ++ ")"
  | project _ _ outputs => s!"Project({outputs.length} expressions)"
  | join _ kind _ _ condition =>
    "Join(" ++ kind.name ++ ", " ++ (condition.map Expr.sql).getD "None" ++ ")"
  | foreign _ kind _ => kind.label

/-- Whether no integer inside the label of a node is too long to be written. -/
def hasWritableLabel : Plan → Bool
  | filter _ _ predicate => predicate.isWritable
  | join _ _ _ _ condition => condition.all Expr.isWritable
  | scan .. | project .. | foreign .. => true

/-- The text that stands for a node in messages, if it can be written. -/
def label? (p : Plan) : Option Text := if p.hasWritableLabel then some p.label else none

mutual

/-- Whether no integer inside a plan is too long to be written. -/
def isWritable : Plan → Bool
  | scan .. => true
  | filter _ input predicate => input.isWritable && predicate.isWritable
  | project _ input outputs => input.isWritable && outputs.all (·.expr.isWritable)
  | join _ _ left right condition =>
    left.isWritable && right.isWritable && condition.all Expr.isWritable
  | foreign _ _ children => areWritable children

def areWritable : List Plan → Bool
  | [] => true
  | p :: ps => p.isWritable && areWritable ps

end

@[simp] theorem areWritable_eq (ps : List Plan) : areWritable ps = ps.all isWritable := by
  induction ps with
  | nil => rfl
  | cons p ps ih => rw [areWritable, ih, List.all_cons]

/-- Equality of optional conditions. -/
def sameCondition? : Option Expr → Option Expr → Option Bool
  | none, none => some true
  | some a, some b => a.same? b
  | _, _ => some false

/-- Equality of lists of expressions. -/
def sameExprs? : List Expr → List Expr → Option Bool
  | [], [] => some true
  | a :: as, b :: bs => do if ← a.same? b then sameExprs? as bs else return false
  | _, _ => some false

/-- Structural equality, whatever the identities are, from the inputs on up to the first difference.
A foreign node equals only itself. There is no answer if that leads to expressions that cannot be
compared. -/
def same? : Plan → Plan → Option Bool
  | scan _ r fs, scan _ r' fs' => some (r = r' && fs = fs')
  | filter _ i p, filter _ i' p' => do if ← i.same? i' then p.same? p' else return false
  | project _ i os, project _ i' os' => do
    if !(← i.same? i') then return false
    if !(← sameExprs? (os.map Output.expr) (os'.map Output.expr)) then return false
    return os.map Output.name = os'.map Output.name
  | join _ k l r c, join _ k' l' r' c' => do
    if !(← l.same? l') then return false
    if !(← r.same? r') then return false
    if k = k' then sameCondition? c c' else return false
  | foreign id _ _, foreign id' _ _ => some (id = id')
  | _, _ => some false

end Plan

end Semijoin
