import Semijoin.Config.Sections
import Semijoin.Logging.Entry
import Semijoin.Rule.Filter
import Semijoin.Rule.Project

/-!
# The optimizer

Applies rules to a plan in passes, until a pass changes nothing or the bound on passes is reached.
A pass takes the rules in order and walks the whole plan with each of them. A replacement that does
not type-check is reported and dropped; every other failure of a rule ends the run. So does a
message that cannot be written, although it is written for the log alone.
-/

namespace Semijoin

/-- Why a run ends without a plan: a rule or a node failed, or a message for the log would show an
integer that is too long to be written. -/
inductive RunError where
  | rule (cause : RuleError)
  | child (cause : ChildFault)
  | tooLong

/-- What a run goes through: the supply of identities and what was logged so far. -/
structure RunState where
  next : Nat
  log : List Logging.Entry := []

/-- A computation of the optimizer. What was logged remains when it fails. -/
abbrev Run := ExceptT RunError (StateM RunState)

namespace Run

def loggerName : Text := Logging.loggerName "optimizer.rules"

def write (entry : Logging.Entry) : Run Unit :=
  modify fun s => { s with log := s.log ++ [entry] }

def debug (message : Text) (context : Option Logging.Context) : Run Unit :=
  write { level := .debug, logger := loggerName, message, context }

/-- A part of a message, which has to be one that can be written. -/
def written {α : Type} : Option α → Run α
  | some text => return text
  | none => throw .tooLong

/-- Tries a rule at the root of a plan. The replacement has as many nodes as the plan. -/
def tryRule (rule : Rule) (p : Plan) : Run (Option { q : Plan // q.size = p.size }) := do
  match h : rule.fire p (← get).next with
  | .ok (none, _) => return none
  | .ok (some q, next) =>
    modify fun s => { s with next }
    let before ← written p.label?
    let after ← written q.label?
    debug (s!"Rule {rule.name} rewrote " ++ before ++ " into " ++ after) none
    return some ⟨q, Rule.size_fire h⟩
  | .error (.mismatch cause) =>
    let before ← written p.label?
    write {
      level := .warning
      logger := loggerName
      message := s!"Rule {rule.name} produced an invalid plan for " ++ before ++ ": " ++
        cause.message }
    return none
  | .error e => throw (.rule e)

/-- A plan over other children, built anew unless they are the nodes that it has. -/
def exchange (p : Plan) (children : List Plan) : Run Plan := do
  if children.map Plan.id = p.children.map Plan.id then return p
  match p.withChildren children (← get).next with
  | .ok (q, next) => modify fun s => { s with next }; return q
  | .error e => throw (.child e)

/-! ## Walks

A walk is written for any monad that runs can be lifted to, and for anything that is done at a node:
the optimizer tries a rule there. -/

section Walk

variable {m : Type → Type} [Monad m] [MonadLiftT Run m]

/-- What is done at a node: it stays, or another plan with as many nodes takes its place. -/
abbrev Edit (m : Type → Type) : Type :=
  (p : Plan) → m (Option { q : Plan // q.size = p.size })

/-- Visits plans from left to right and adds the firings up. -/
def visitAll {size : Nat} (visit : (c : Plan) → c.size < size → m (Plan × Nat)) :
    (ps : List Plan) → (∀ c ∈ ps, c.size < size) → m (List Plan × Nat)
  | [], _ => return ([], 0)
  | c :: cs, h => do
    let (c', fired) ← visit c (h c List.mem_cons_self)
    let (cs', firedLater) ← visitAll visit cs fun d hd => h d (List.mem_cons_of_mem c hd)
    return (c' :: cs', fired + firedLater)

/-- Visits the children of a plan. The plan is built anew if a child came back as another node. -/
def visitChildren (p : Plan) (visit : (c : Plan) → c.size < p.size → m (Plan × Nat)) :
    m (Plan × Nat) := do
  let (children, fired) ← visitAll visit p.children fun _ => Plan.size_lt_of_mem_children
  return (← (exchange p children : Run Plan), fired)

/-- Walks a plan, children before their parents. -/
def bottomUp (edit : Edit m) (p : Plan) : m (Plan × Nat) := do
  let (p, fired) ← visitChildren p fun c _ => bottomUp edit c
  match ← edit p with
  | none => return (p, fired)
  | some q => return (q, fired + 1)
termination_by p.size

/-- Walks a plan, parents before their children. The children of a replacement are visited, too. -/
def topDown (edit : Edit m) (p : Plan) : m (Plan × Nat) := do
  match ← edit p with
  | none => visitChildren p fun c _ => topDown edit c
  | some ⟨q, _⟩ =>
    let (q, fired) ← visitChildren q fun c _ => topDown edit c
    return (q, fired + 1)
termination_by p.size

def walk (edit : Edit m) : MatchOrder → Plan → m (Plan × Nat)
  | .bottomUp => bottomUp edit
  | .topDown => topDown edit

end Walk

/-- Walks a plan with each rule in turn. -/
def pass (order : MatchOrder) : List Rule → Plan → Run (Plan × Nat)
  | [], p => return (p, 0)
  | rule :: rules, p => do
    let (p, fired) ← walk (tryRule rule) order p
    let (p, firedLater) ← pass order rules p
    return (p, fired + firedLater)

/-- The passes of a run. `left` is the number of passes that may still follow the `done` ones. -/
def passes (rules : List Rule) (order : MatchOrder) (context : Logging.Context) (bound : Int) :
    (left done : Nat) → Plan → Run Plan
  | 0, _, p => do
    -- The bound is the caller's, so it may be any integer; what is counted is never that long.
    let shown ← written (if Value.isShort bound then some bound else none)
    debug s!"Stopped after {shown} passes without reaching a fixed point" (some context)
    return p
  | left + 1, done, p => do
    let (p, fired) ← pass order rules p
    let own : Logging.Context := [("pass", .int (done + 1)), ("rewrites", .int fired)]
    debug s!"Optimization pass {done + 1}: {fired} rewrite(s)" (some (context.merge own))
    if fired = 0 then return p
    passes rules order context bound left (done + 1) p

end Run

/-- An optimizer: rules in order of priority, and what holds for a run that does not say
otherwise. -/
structure Optimizer where
  rules : List Rule := []
  maxIterations : Int := 10
  matchOrder : MatchOrder := .bottomUp

namespace Optimizer

/-- The optimizer with the rules that a configuration enables. There is none if the order is not one
of the two, which a configuration that was read never says. -/
def ofConfig? (c : OptimizerConfig) : Option Optimizer := do
  let matchOrder ← MatchOrder.ofText? c.matchOrder
  return {
    rules :=
      (if c.projectTranspose then [projectTranspose] else []) ++
        (if c.filterTranspose then [filterTranspose] else [])
    maxIterations := c.maxIterations
    matchOrder }

def addRule (o : Optimizer) (rule : Rule) : Optimizer := { o with rules := o.rules ++ [rule] }

def text (o : Optimizer) : String := s!"RuleBasedOptimizer(rules={o.rules.length})"

/-- Optimizes a plan with a bound on passes and an order of its own. -/
def optimizeWith (o : Optimizer) (bound : Int) (order : MatchOrder) (p : Plan) : Run Plan :=
  let context : Logging.Context :=
    [("rules", .list (o.rules.map fun rule => .str rule.name)), ("match_order", .str order.name)]
  Run.passes o.rules order context bound bound.toNat 0 p

/-- Optimizes a plan. -/
def optimize (o : Optimizer) (p : Plan) : Run Plan :=
  o.optimizeWith o.maxIterations o.matchOrder p

end Optimizer

end Semijoin
