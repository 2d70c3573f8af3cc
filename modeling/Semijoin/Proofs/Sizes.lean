import Mathlib.Tactic.Ring
import Semijoin.Proofs.Exact
import Semijoin.Proofs.Identity

/-!
# Rewriting and the estimated size

Rewriting a plan does not change how many rows are expected of it. A share of the left rows is kept
by a join and then by a filter, or the other way around, and a condition that moves below a
projection keeps its selectivity, since that is judged by the operators alone. It is judged by a
column only where the column is read as a truth value, so no join condition may do that; and only
scans may have hints, since the nodes that a firing builds have none.
-/

namespace Semijoin

/-! ## Selectivity under substitution -/

namespace Expr

/-- Whether a column is read as a truth value: the expression is one, or an operand of a connective
is, or one further in. -/
@[grind =] def testsColumn : Expr → Bool
  | col _ => true
  | bin .and left right | bin .or left right => left.testsColumn || right.testsColumn
  | un .not operand => operand.testsColumn
  | _ => false

section Substitution

variable {f : Column → Expr} {e e' : Expr}

theorem testsColumn_bind (h : e.testsColumn = false) : (e.bind f).testsColumn = false := by
  induction e with
  | col => simp [testsColumn] at h
  | lit | foreign => rfl
  | bin op left right ihl ihr =>
    cases op with
    | and | or => grind
    | _ => rfl
  | un op operand ih =>
    cases op with
    | not => exact ih h
    | _ => rfl

theorem selectivity_bind (h : e.testsColumn = false) :
    ((e.bind f).selectivity : Rat) = e.selectivity := by
  induction e with
  | col => simp [testsColumn] at h
  | lit | foreign => rfl
  | bin op left right ihl ihr =>
    cases op with
    | and | or => grind [selectivity]
    | _ => rfl
  | un op operand ih =>
    cases op with
    | not => grind [selectivity]
    | _ => rfl

theorem testsColumn_unnamed (e : Expr) : e.unnamed.testsColumn = e.testsColumn := by
  induction e with
  | col | lit | foreign => rfl
  | bin op left right ihl ihr =>
    cases op with
    | and | or => simp only [unnamed_bin, testsColumn, ihl, ihr]
    | _ => rfl
  | un op operand ih =>
    cases op with
    | not => exact ih
    | _ => rfl

theorem selectivity_unnamed (e : Expr) : (e.unnamed.selectivity : Rat) = e.selectivity := by
  induction e with
  | col | lit | foreign => rfl
  | bin op left right ihl ihr =>
    cases op with
    | and | or => simp only [unnamed_bin, selectivity, ihl, ihr]
    | _ => rfl
  | un op operand ih =>
    cases op with
    | not => simp only [unnamed_un, selectivity, ih]
    | _ => rfl

theorem testsColumn_congr (h : e.unnamed = e'.unnamed) : e.testsColumn = e'.testsColumn := by
  rw [← testsColumn_unnamed, h, testsColumn_unnamed]

theorem selectivity_congr (h : e.unnamed = e'.unnamed) :
    (e.selectivity : Rat) = e'.selectivity := by
  rw [← selectivity_unnamed, h, selectivity_unnamed]

end Substitution

end Expr

section Below

variable {input : Plan} {outputs : List Output} {condition condition' : Expr}

theorem testsColumn_below? (h : below? input outputs condition = some condition')
    (htests : condition.testsColumn = false) : condition'.testsColumn = false :=
  (Expr.testsColumn_congr (Expr.unnamed_mapColumns? h)).trans (Expr.testsColumn_bind htests)

/-- A condition that moves below a projection is expected to be true as often as before. -/
theorem selectivity_below? (h : below? input outputs condition = some condition')
    (htests : condition.testsColumn = false) :
    (condition'.selectivity : Rat) = condition.selectivity :=
  (Expr.selectivity_congr (Expr.unnamed_mapColumns? h)).trans (Expr.selectivity_bind htests)

end Below

/-! ## Rows under rewriting -/

/-- Whether the node is a join whose condition reads a column as a truth value. -/
def Plan.testsColumn : Plan → Bool
  | join _ _ _ _ condition => condition.any Expr.testsColumn
  | scan .. | filter .. | project .. | foreign .. => false

/-- No join condition reads a column as a truth value. -/
def Plan.TestsNoColumn (p : Plan) : Prop := p.All fun n => n.testsColumn = false

/-- Only scans have hints. -/
def CostModel.HintsScans (m : CostModel) (p : Plan) : Prop :=
  p.All fun n => n.isScan = false → m.recordOf n = {}

section Rewriting

open Plan CostModel

variable {rules : List Rule} {rule : Rule} {next n : Nat} {p q : Plan} {m : CostModel}

/-- It does not matter whether a filter loses left rows before the join or after it. -/
theorem JoinKind.rows_mul (kind : JoinKind) (left right kept : Rat) (share : Option Rat) :
    kind.rows (left * kept) right share = kind.rows left right share * kept := by
  cases share <;> cases kind <;> simp only [JoinKind.rows] <;> ring

theorem Rule.Fires.testsNoColumn (h : rule.Fires next p q) (hp : p.TestsNoColumn) :
    q.TestsNoColumn := by
  cases h with
  | project _ hbelow | filterBelowProject _ hbelow =>
    simp only [TestsNoColumn, all_join, all_project, all_filter, Plan.testsColumn,
      Option.any_some, true_and] at hp ⊢
    exact ⟨testsColumn_below? hbelow hp.1, hp.2⟩
  | filter =>
    simpa only [TestsNoColumn, all_join, all_filter, Plan.testsColumn, true_and] using hp

/-- Nodes that are built anew have no hints, so it remains so while all others are kept. -/
theorem CostModel.HintsScans.kept (h : m.HintsScans p) (hnew : ∀ n, next ≤ n.id → m.recordOf n = {})
    (hkept : ∀ n ∈ q.nodes, n ∈ p.nodes ∨ next ≤ n.id) : m.HintsScans q := by
  intro n hn hscan
  rcases hkept n hn with hmem | hle
  · exact h n hmem hscan
  · exact hnew n hle

/-- A firing leaves the estimated rows as they were. -/
theorem Rule.Fires.rows (h : rule.Fires next p q) (hnew : ∀ n, next ≤ n.id → m.recordOf n = {})
    (htests : p.TestsNoColumn) (hhints : m.HintsScans p) : m.rows q = m.rows p := by
  have hbare := hhints.kept hnew fun _ => h.mem_or_le
  cases h with
  | @project _ _ _ _ kind input right outputs condition condition' _ hbelow =>
    simp only [HintsScans, all_join, all_project, isScan, forall_const] at hhints hbare
    obtain ⟨hjoin, ⟨hproject, -⟩, -⟩ := hhints
    have hsame := selectivity_below? hbelow (all_join.1 htests).1
    rw [rows_project hbare.1, rows_join hbare.2.1, rows_join hjoin, rows_project hproject]
    simp only [Option.map_some, hsame]
  | @filterBelowProject _ _ _ _ _ _ kind input right outputs predicate _ _ _ hbelow =>
    simp only [HintsScans, all_join, all_project, all_filter, isScan, forall_const] at hhints hbare
    obtain ⟨hjoin, ⟨hproject, hfilter, -⟩, -⟩ := hhints
    have hsame := selectivity_below? hbelow (all_join.1 htests).1
    rw [rows_project hbare.1, rows_filter hbare.2.1, rows_join hbare.2.2.1, rows_join hjoin,
      rows_project hproject, rows_filter hfilter, JoinKind.rows_mul]
    simp only [Option.map_some, hsame]
  | @filter _ _ _ _ kind input right predicate condition =>
    simp only [HintsScans, all_join, all_filter, isScan, forall_const] at hhints hbare
    obtain ⟨hjoin, ⟨hfilter, -⟩, -⟩ := hhints
    rw [rows_filter hbare.1, rows_join hbare.2.1, rows_join hjoin, rows_filter hfilter,
      JoinKind.rows_mul]

namespace Rewrites

theorem testsNoColumn (h : Rewrites rules next n p q) (hp : p.TestsNoColumn) :
    q.TestsNoColumn := by
  induction h with
  | refl => exact hp
  | fires _ h => exact h.testsNoColumn hp
  | trans _ _ ih ih' => exact ih' (ih hp)
  | filter _ _ _ ih => exact all_filter.2 ⟨rfl, ih (all_filter.1 hp).2⟩
  | project _ _ _ ih => exact all_project.2 ⟨rfl, ih (all_project.1 hp).2⟩
  | foreign _ _ _ ih =>
    exact all_foreign.2 ⟨rfl, forall_mem_exchange ih (all_foreign.1 hp).2⟩
  | join _ _ _ _ ih ih' =>
    obtain ⟨hcondition, hleft, hright⟩ := all_join.1 hp
    exact all_join.2 ⟨hcondition, ih hleft, ih' hright⟩

/-- Firings leave the estimated rows as they were, wherever in the plan they happen. -/
theorem rows (h : Rewrites rules next n p q) (hnew : ∀ n, next ≤ n.id → m.recordOf n = {})
    (htests : p.TestsNoColumn) (hhints : m.HintsScans p) : m.rows q = m.rows p := by
  induction h with
  | refl => rfl
  | fires _ h => exact h.rows hnew htests hhints
  | trans h _ ih ih' =>
    exact (ih' (h.testsNoColumn htests) (hhints.kept hnew h.mem_or_le)).trans (ih htests hhints)
  | filter _ hid _ ih =>
    obtain ⟨hbare, hinput⟩ := all_filter.1 hhints
    rw [rows_filter (hnew _ hid), rows_filter (hbare rfl), ih (all_filter.1 htests).2 hinput]
  | project _ hid _ ih =>
    obtain ⟨hbare, hinput⟩ := all_project.1 hhints
    rw [rows_project (hnew _ hid), rows_project (hbare rfl), ih (all_project.1 htests).2 hinput]
  | foreign _ hid _ ih =>
    rw [rows_foreign (hnew _ hid), rows_foreign (hhints.self rfl)]
  | join _ hid _ _ ih ih' =>
    obtain ⟨hbare, hleft, hright⟩ := all_join.1 hhints
    obtain ⟨-, htl, htr⟩ := all_join.1 htests
    rw [rows_join (hnew _ hid), rows_join (hbare rfl), ih htl hleft, ih' htr hright]

end Rewrites

end Rewriting

/-- If only scans have hints and no join condition reads a column as a truth value, then exactly as
many rows are expected of the plan that a run of the optimizer returns as of the one that it was
given, whatever the settings are. -/
theorem optimizeWith_rows {o : Optimizer} {s : RunState} {p : Plan} {g : HintRegistry}
    {c : CostConfig} (hp : p.Built s.next) (htests : p.TestsNoColumn) (hg : g.Made s.next)
    (hhints : (g.costModel c).HintsScans p) (hrules : o.rules ⊆ shippedRules) (bound : Int)
    (order : MatchOrder) :
    (o.optimizeWith bound order p).EnsuresUnless (o.CanFail bound p) s fun q _ =>
      ∃ rows : Rat, (g.costModel c).cardinality p = .ok rows ∧
        (g.costModel c).cardinality q = .ok rows := by
  have hnew (n : Plan) (hle : s.next ≤ n.id) : (g.costModel c).recordOf n = {} :=
    HintRegistry.recordOf_costModel (hg.valid.recordOf?_eq_none hle) c
  refine (o.ensuresUnless_optimizeWith hrules hp bound order).imp ?_
  rintro q _ ⟨counts, hprogress, -⟩
  have hrows := hprogress.rewrites.rows hnew htests hhints
  exact ⟨_, CostModel.cardinality_eq _ p, hrows ▸ CostModel.cardinality_eq _ q⟩

theorem openOrders_rows :
    (({ rules := shippedRules } : Optimizer).optimizeWith 3 .topDown openOrders).Ensures ⟨5, []⟩
      fun q _ => ∃ rows : Rat,
        ((HintRegistry.after (ordersCalls 40)).costModel {}).cardinality openOrders = .ok rows ∧
          ((HintRegistry.after (ordersCalls 40)).costModel {}).cardinality q = .ok rows := by
  have hmade : (HintRegistry.after (ordersCalls 40)).Made 5 :=
    (HintRegistry.Made.empty 5).apply (by decide) _
  have htests : openOrders.TestsNoColumn := by
    simp [openOrders, Plan.TestsNoColumn, Plan.testsColumn, Expr.testsColumn]
  have hhints : ((HintRegistry.after (ordersCalls 40)).costModel {}).HintsScans openOrders := by
    have hids : openOrders.All fun n => n.isScan = false → n.id ≠ 0 := by
      simp [openOrders, Plan.isScan, Plan.id]
    exact hids.imp fun n hn hscan => recordOf_ordersCalls 40 {} (hn hscan)
  exact (optimizeWith_rows (o := { rules := shippedRules }) openOrders_built htests hmade hhints
    (List.Subset.refl _) 3 .topDown).ensures (openOrders_not_canFail _)

end Semijoin
