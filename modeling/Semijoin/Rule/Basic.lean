import Semijoin.Plan.Build

/-!
# Rules

A rule recognises a pattern at the root of a plan and builds the replacement for it. The two steps
are apart, so that a match can be looked at before it is applied. A rule keeps the number of nodes;
this is what lets a walk descend into a replacement that it has just made.
-/

namespace Semijoin

/-- A join node taken apart. -/
structure JoinNode where
  id : Nat
  kind : JoinKind
  left : Plan
  right : Plan
  condition : Option Expr

/-- A filter node taken apart. -/
structure FilterNode where
  id : Nat
  input : Plan
  predicate : Expr

/-- A projection node taken apart. -/
structure ProjectNode where
  id : Nat
  input : Plan
  outputs : List Output

def JoinNode.plan (j : JoinNode) : Plan := .join j.id j.kind j.left j.right j.condition

def FilterNode.plan (f : FilterNode) : Plan := .filter f.id f.input f.predicate

def ProjectNode.plan (p : ProjectNode) : Plan := .project p.id p.input p.outputs

/-- A pattern that a rule has found: the nodes it consists of. The match is null sensitive if it
moves a predicate that can be null past an anti join. -/
structure Match where
  rule : String
  join : JoinNode
  project : Option ProjectNode := none
  filter : Option FilterNode := none
  nullSensitive : Bool := false

namespace Match

/-- Equality of optional parts, by the structure of their nodes. -/
def samePart? : Option Plan → Option Plan → Option Bool
  | none, none => some true
  | some a, some b => a.same? b
  | _, _ => some false

/-- Equality of matches part by part up to the first difference. There is no answer if that leads to
expressions that cannot be compared. -/
def same? (a b : Match) : Option Bool := do
  if a.rule ≠ b.rule then return false
  if !(← a.join.plan.same? b.join.plan) then return false
  if !(← samePart? (a.project.map ProjectNode.plan) (b.project.map ProjectNode.plan)) then
    return false
  if !(← samePart? (a.filter.map FilterNode.plan) (b.filter.map FilterNode.plan)) then
    return false
  return a.nullSensitive = b.nullSensitive

/-- The text that shows the parts of a match, if the labels of their nodes can be written. -/
def text? (m : Match) : Option Text := do
  let part : Option Plan → Option Text
    | none => some "None"
    | some p => p.label?
  return s!"MatchHandle(rule_name='{m.rule}', join=" ++ (← m.join.plan.label?) ++
    ", project=" ++ (← part (m.project.map ProjectNode.plan)) ++
    ", filter=" ++ (← part (m.filter.map FilterNode.plan)) ++
    ", null_sensitive=" ++ (if m.nullSensitive then "True" else "False") ++ ")"

end Match

/-- Why a rule could not build a replacement. -/
inductive RuleError where
  | mismatch (cause : SchemaMismatch)
  | tooLong
  | foreignExpr
  | foreignMatch (rule origin : String)

def RuleError.message : RuleError → Text
  | mismatch cause => cause.message
  | tooLong => Value.tooLongMessage
  | foreignExpr => ""
  | foreignMatch rule origin => s!"{rule} cannot apply a match from {origin}"

def BuildError.ruleError : BuildError → RuleError
  | mismatch cause => .mismatch cause
  | tooLong => .tooLong

/-- A rule by its name, the text that stands for it, and its two steps. -/
structure Rule where
  name : String
  text : String
  match? : Plan → Option Match
  apply : Match → Nat → Except RuleError (Plan × Nat)
  size_apply : ∀ {p q : Plan} {m : Match} {next next' : Nat},
    match? p = some m → apply m next = .ok (q, next') → q.size = p.size

namespace Rule

/-- Matches and applies in one step. -/
def fire (rule : Rule) (p : Plan) (next : Nat) : Except RuleError (Option Plan × Nat) :=
  match rule.match? p with
  | none => .ok (none, next)
  | some m => (rule.apply m next).map fun (q, next) => (some q, next)

theorem size_fire {rule : Rule} {p q : Plan} {next next' : Nat}
    (h : rule.fire p next = .ok (some q, next')) : q.size = p.size := by
  unfold fire at h
  split at h
  · simp at h
  · rename_i m hm
    cases ha : rule.apply m next with
    | error e => simp [ha, Except.map] at h
    | ok r =>
      simp only [ha, Except.map, Except.ok.injEq, Prod.mk.injEq, Option.some.injEq] at h
      obtain ⟨rfl, rfl⟩ := h
      exact rule.size_apply hm ha

end Rule

/-- Builds a node on behalf of a rule. -/
def Build.forRule {α : Type} (build : Build α) (next : Nat) : Except RuleError (α × Nat) :=
  (build next).mapError BuildError.ruleError

/-- A node that was built for a rule passed its check and has the identity that was next. -/
theorem Build.forRule_node {make : Nat → Plan} {next : Nat} {r : Plan × Nat}
    (h : (node make).forRule next = .ok r) :
    (make next).check = .ok () ∧ r = (make next, next + 1) := by
  unfold forRule node at h
  cases hcheck : (make next).check with
  | error e => rw [hcheck] at h; cases h
  | ok u =>
    rw [hcheck] at h
    exact ⟨rfl, (Except.ok.inj h).symm⟩

/-- Refuses a match that another rule found. -/
def Match.checkRule (m : Match) (name : String) : Except RuleError Unit :=
  if m.rule = name then .ok () else .error (.foreignMatch name m.rule)

/-- The condition of a join over a projection, moved to the input of the projection: references to
the left columns become the projected expressions, those to the right columns move by the
difference in width. -/
def ProjectNode.conditionBelow (p : ProjectNode) : Option Expr → Except RuleError (Option Expr)
  | none => .ok none
  | some e =>
    let offset : Int := (p.input.schema.length : Int) - p.outputs.length
    match e.substitute? (p.outputs.map Output.expr) offset with
    | some e => .ok (some e)
    | none => .error .foreignExpr

end Semijoin
