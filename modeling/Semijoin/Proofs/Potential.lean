import Mathlib.Algebra.BigOperators.Group.List.Basic
import Semijoin.Proofs.Rewrites

/-!
# The potential of a plan

A firing moves filters and projections out of the left input of a join. They can land in the left
input of a join further up, so no count of nodes gets smaller; but the sum over all semi and anti
joins of what they may still be moved below does. That sum bounds the number of firings.
-/

namespace Semijoin

namespace Plan

/-- Whether a node is a filter or a projection. -/
def isOperator : Plan → Bool
  | filter .. | project .. => true
  | scan .. | join .. | foreign .. => false

/-- The number of filters and projections. -/
def operators (p : Plan) : Nat := p.nodes.countP isOperator

/-- The number of filters and projections that a node can be moved below: those in the left input of
a semi or anti join. -/
def passable : Plan → Nat
  | join _ kind left _ _ => if kind.isFiltering then left.operators else 0
  | scan .. | filter .. | project .. | foreign .. => 0

/-- The sum over all semi and anti joins of the filters and projections in their left inputs. -/
def potential (p : Plan) : Nat := (p.nodes.map passable).sum

section Counts

variable {id : Nat} {input left right : Plan} {kind : JoinKind} {condition : Option Expr}

@[simp] theorem operators_filter {predicate : Expr} :
    (filter id input predicate).operators = input.operators + 1 := by
  simp [operators, nodes, List.countP_cons, isOperator]

@[simp] theorem operators_project {outputs : List Output} :
    (project id input outputs).operators = input.operators + 1 := by
  simp [operators, nodes, List.countP_cons, isOperator]

@[simp] theorem operators_foreign {name : ForeignKind} {children : List Plan} :
    (foreign id name children).operators = (children.map operators).sum := by
  simp only [operators, nodes, nodesAll_eq, isOperator, List.countP_cons, List.countP_flatMap]
  rfl

@[simp] theorem operators_join :
    (join id kind left right condition).operators = left.operators + right.operators := by
  simp [operators, nodes, isOperator]

@[simp] theorem potential_filter {predicate : Expr} :
    (filter id input predicate).potential = input.potential := by
  simp [potential, nodes, passable]

@[simp] theorem potential_project {outputs : List Output} :
    (project id input outputs).potential = input.potential := by
  simp [potential, nodes, passable]

@[simp] theorem potential_foreign {name : ForeignKind} {children : List Plan} :
    (foreign id name children).potential = (children.map potential).sum := by
  simp only [potential, nodes, nodesAll_eq, passable, List.flatMap_def, List.map_cons,
    List.map_flatten, List.sum_cons, List.sum_flatten, List.map_map, Nat.zero_add]
  rfl

@[simp] theorem potential_join :
    (join id kind left right condition).potential =
      (if kind.isFiltering then left.operators else 0) + (left.potential + right.potential) := by
  simp [potential, nodes, passable]

end Counts

example : openOrders.potential = 2 := by decide

end Plan

/-! ## Firings lower the potential -/

section Potential

variable {rules : List Rule} {rule : Rule} {next n : Nat} {p q : Plan}

theorem Rule.Fires.operators (h : rule.Fires next p q) : q.operators = p.operators := by
  cases h <;> simp <;> omega

theorem Rule.Fires.potential_lt (h : rule.Fires next p q) : q.potential < p.potential := by
  cases h with
  | project hkind | filter hkind => simp [hkind]
  | filterBelowProject hkind =>
    simp only [Plan.potential_join, Plan.potential_project, Plan.potential_filter,
      Plan.operators_project, Plan.operators_filter, hkind, if_true]
    omega

namespace Rewrites

theorem operators (h : Rewrites rules next n p q) : q.operators = p.operators := by
  induction h with
  | refl => rfl
  | fires _ h => exact h.operators
  | trans _ _ ih ih' => rw [ih', ih]
  | filter _ _ _ ih | project _ _ _ ih | foreign _ _ _ ih => simp [ih]
  | join _ _ _ _ ih ih' => simp [ih, ih']

/-- Every firing anywhere in a plan takes at least one from the potential. -/
theorem add_potential_le (h : Rewrites rules next n p q) : n + q.potential ≤ p.potential := by
  induction h with
  | refl => omega
  | fires _ h =>
    have := h.potential_lt
    omega
  | trans _ _ ih ih' => omega
  | filter _ _ _ ih | project _ _ _ ih => simpa using ih
  | foreign _ _ _ ih =>
    simp only [Plan.potential_foreign, List.map_append, List.map_cons, List.sum_append,
      List.sum_cons]
    omega
  | join _ _ h _ ih ih' =>
    -- Moving operators up inside the left input leaves their number there as it is.
    simp only [Plan.potential_join, h.operators]
    omega

end Rewrites

end Potential

end Semijoin
