import Semijoin.Config.Sections
import Semijoin.Cost.Arithmetic
import Semijoin.Hints.Registry

/-!
# Estimates

How many rows a plan yields, how large they are and what evaluating the plan costs. Hints are used
where a node has them, and fixed rules of thumb elsewhere.
-/

namespace Semijoin

/-- The usual width of a value in bytes. -/
def DataType.width : DataType → Nat
  | integer => 4
  | bigint => 8
  | float => 4
  | double => 8
  | decimal => 16
  | varchar => 32
  | text => 64
  | boolean => 1
  | date => 4
  | timestamp => 8
  | null => 0

/-- The bytes of a row, each value in it at its usual width. -/
def Plan.rowWidth (p : Plan) : Nat := p.schema.foldl (fun width f => width + f.type.width) 0

/-- Why there is no estimate: an integer is too large to compute with, or a divisor is zero. -/
inductive EstimateError where
  | tooLarge
  | zeroDivisor
deriving DecidableEq

/-- Estimated numbers. -/
abbrev Estimate (α : Type) := Except EstimateError α

open Arithmetic

section

variable {α : Type} [Arithmetic α]

/-- The share of rows that satisfy an expression, judged by its outermost operators. -/
def Expr.selectivity : Expr → α
  | bin .and left right => mul left.selectivity right.selectivity
  | bin .or left right =>
    sub (ofRat 1) (mul (sub (ofRat 1) left.selectivity) (sub (ofRat 1) right.selectivity))
  | bin .eq _ _ => ofRat (1 / 10)
  | bin .lt _ _ | bin .le _ _ | bin .gt _ _ | bin .ge _ _ => ofRat (33 / 100)
  | bin .ne _ _ => ofRat (9 / 10)
  | un .not operand => sub (ofRat 1) operand.selectivity
  | un .isNull _ => ofRat (5 / 100)
  | un .isNotNull _ => ofRat (95 / 100)
  | _ => ofRat (1 / 10)

/-- An integer as a number to compute with. -/
def Estimate.ofInt (n : Int) : Estimate α :=
  match ofInt? n with
  | some x => .ok x
  | none => .error .tooLarge

/-- A configured number as a number to compute with. -/
def Estimate.ofNumber : Number → Estimate α
  | .int n => .ofInt n
  | .float x => .ok (ofDouble x)

/-- A number divided by an integer. -/
def Estimate.quotient (x : α) (n : Int) : Estimate α := do
  let y ← Estimate.ofInt n
  if n = 0 then .error .zeroDivisor else .ok (div x y)

/-- The rows that a record implies, where it does. -/
def HintRecord.impliedRows? (r : HintRecord) : Option α := do
  return mul (ofRat (← r.keyCardinality)) (ofDouble (← r.valuesPerKey))

/-- The lesser of one and a number; one if the number is not comparable. -/
def atMostOne (x : α) : α := if lt x (ofRat 1) then x else ofRat 1

end

/-- What estimates depend on: the settings and the hints of the nodes. -/
structure CostModel where
  config : CostConfig := {}
  hints : Plan → Option HintRecord := fun _ => none

namespace CostModel

variable {α : Type} [Arithmetic α]

/-- The estimate of a node that its hints imply, or else its own estimate times the growth that its
hints state. -/
def hinted (hints : Option HintRecord) (own : Estimate α) : Estimate α :=
  match hints with
  | none => own
  | some r =>
    match (r.impliedRows? : Option α) with
    | some rows => .ok rows
    | none => own.map fun rows => mul rows (ofDouble r.recordsPerCall)

/-- The number of rows a plan yields. -/
def cardinality (m : CostModel) (p : Plan) : Estimate α :=
  hinted (m.hints p) <|
    match p with
    | .scan .. | .foreign .. => .ofInt m.config.defaultRowCount
    | .filter _ input predicate => do
      return mul (← m.cardinality input) predicate.selectivity
    | .project _ input _ => m.cardinality input
    | .join _ kind left right condition => do
      let leftRows ← m.cardinality left
      let rightRows ← m.cardinality right
      match condition with
      | none => return mul leftRows rightRows
      | some e =>
        let matching := atMostOne (mul rightRows e.selectivity)
        match kind with
        | .inner => return mul (mul leftRows rightRows) e.selectivity
        | .semi => return mul leftRows matching
        | .anti => return mul leftRows (sub (ofRat 1) matching)

/-- The size of a row in bytes. -/
def recordBytes (m : CostModel) (p : Plan) : Estimate α :=
  match (m.hints p).bind HintRecord.bytesPerRecord with
  | some bytes => .ok (ofDouble bytes)
  | none => .ofInt p.rowWidth

/-- The cost of a node itself: its rows, and for a scan the pages that it reads. -/
def ownCost (m : CostModel) (p : Plan) : Estimate α := do
  let rows ← m.cardinality p
  let cpu := mul rows (← .ofNumber m.config.cpuTupleCost)
  match p with
  | .scan .. =>
    let pages ← .quotient (mul rows (← m.recordBytes p)) m.config.pageSizeBytes
    return add cpu (mul pages (← .ofNumber m.config.ioPageCost))
  | _ => return cpu

mutual

/-- The cost of evaluating a plan. -/
def cost (m : CostModel) (p : Plan) : Estimate α := do
  let own ← m.ownCost p
  match p with
  | .scan .. => return own
  | .filter _ input _ | .project _ input _ => return add own (← m.cost input)
  | .join _ _ left right _ => return add (add own (← m.cost left)) (← m.cost right)
  | .foreign _ _ children => m.addCosts own children

/-- A cost with those of several plans added one after the other. -/
def addCosts (m : CostModel) (sum : α) : List Plan → Estimate α
  | [] => return sum
  | p :: ps => do m.addCosts (add sum (← m.cost p)) ps

end

/-- The best plan so far among costed ones: a later plan must be strictly cheaper. -/
def cheapestOf (m : CostModel) : (best : Option (Plan × Binary64)) → List Plan →
    Estimate (Option Plan)
  | best, [] => return best.map (·.1)
  | best, p :: ps => do
    let c : Binary64 ← m.cost p
    match best with
    | none => m.cheapestOf (some (p, c)) ps
    | some (_, least) =>
      if c.lt least then m.cheapestOf (some (p, c)) ps else m.cheapestOf best ps

/-- The first plan of least cost; none if there is no plan. -/
def cheapest? (m : CostModel) (ps : List Plan) : Estimate (Option Plan) := m.cheapestOf none ps

end CostModel

end Semijoin
