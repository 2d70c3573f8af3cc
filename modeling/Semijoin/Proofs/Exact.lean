import Mathlib.Algebra.Order.BigOperators.Group.List
import Mathlib.Algebra.Order.Ring.Rat
import Semijoin.Proofs.Application
import Semijoin.Proofs.Estimates

/-!
# Exact estimates

Over exact rationals an estimate always exists, so that it is a number rather than a computation
that may fail: `CostModel.rows` is the number of rows of a plan, and the sum of `CostModel.charge`
over its nodes is its cost. The numbers that go into an estimate are never below zero if they come
from setters and from an accepted configuration.
-/

namespace Semijoin

/-! ## Settings and hints as numbers -/

/-- The value of a double. Infinities and NaN count as zero. -/
def Binary64.exact (x : Binary64) : Rat := x.toRat?.getD 0

/-- The value of a configured number. -/
def Number.exact : Number → Rat
  | int n => n
  | float x => x.exact

theorem Number.exact_nonneg {n : Number} (h : n.isNegative = false) : 0 ≤ n.exact := by
  cases n with
  | int n => exact Int.cast_nonneg (Number.isNegative_int_eq_false_iff.mp h)
  | float x =>
    cases x with
    | finite q =>
      have hlt : ¬ q < 0 := by
        simpa [isNegative, Binary64.lt, Binary64.zero, Binary64.toRat?] using h
      exact not_lt.mp hlt
    | negZero | posInf | negInf | nan => exact le_rfl

namespace HintRecord

variable {r r' : HintRecord} {hint : Hint} {value : Value} {own own' : Rat}

/-- The rows of a node with these hints, if `own` rows come of its inputs. -/
def adjust (r : HintRecord) (own : Rat) : Rat :=
  (r.impliedRows? : Option Rat).getD (own * r.recordsPerCall.exact)

@[simp] theorem adjust_empty (own : Rat) : ({} : HintRecord).adjust own = own := mul_one own

/-- No average is below zero. -/
def NonNegative (r : HintRecord) : Prop := ∀ hint x, r.get? hint = some (.float x) → 0 ≤ x.exact

theorem nonNegative_empty : ({} : HintRecord).NonNegative := by
  intro hint x h
  cases hint with
  | keyCardinality | valuesPerKey | bytesPerRecord => exact nomatch h
  | recordsPerCall =>
    obtain rfl : Binary64.one = x := by simpa [get?] using h
    exact zero_le_one

theorem exact_nonneg_of_quantity {q : Quantity} (h : quantity hint value = .ok q) :
    0 ≤ q.double.exact := by
  obtain ⟨d, hd, hnonneg⟩ := nonneg_of_quantity h
  simpa [Binary64.exact, hd] using hnonneg

/-- What a setter stores is not below zero. -/
theorem NonNegative.set (h : r.NonNegative) (hset : r.set hint value = .ok r') :
    r'.NonNegative := by
  obtain ⟨⟨q, hq, hstored⟩, hothers⟩ := get?_set hset
  intro other x hx
  by_cases hother : other = hint
  · subst hother
    have hvalue : stored q other = .float x := Option.some.inj (hstored.symm.trans hx)
    cases other with
    | keyCardinality => exact nomatch hvalue
    | valuesPerKey | bytesPerRecord | recordsPerCall =>
      obtain rfl := Value.float.inj hvalue
      exact exact_nonneg_of_quantity hq
  · exact h other x (hothers other hother ▸ hx)

/-- Hints state the rows themselves or by how much they grow. -/
theorem NonNegative.adjust_cases (h : r.NonNegative) :
    (∃ rows, 0 ≤ rows ∧ ∀ own, r.adjust own = rows) ∨
      ∃ growth, 0 ≤ growth ∧ ∀ own, r.adjust own = own * growth := by
  cases hrows : (r.impliedRows? : Option Rat) with
  | none =>
    refine .inr ⟨r.recordsPerCall.exact, h .recordsPerCall _ rfl, fun own => ?_⟩
    simp only [adjust, hrows, Option.getD_none]
  | some rows =>
    refine .inl ⟨rows, ?_, fun own => by simp only [adjust, hrows, Option.getD_some]⟩
    cases hkeys : r.keyCardinality with
    | none => simp [impliedRows?, hkeys] at hrows
    | some keys =>
      cases hvalues : r.valuesPerKey with
      | none => simp [impliedRows?, hkeys, hvalues] at hrows
      | some values =>
        have hvalues_nonneg : 0 ≤ values.exact := h .valuesPerKey values (by simp [get?, hvalues])
        obtain rfl : (keys : Rat) * values.exact = rows := by
          simp only [impliedRows?, hkeys, hvalues] at hrows
          exact Option.some.inj hrows
        exact mul_nonneg (Nat.cast_nonneg keys) hvalues_nonneg

theorem NonNegative.adjust_nonneg (h : r.NonNegative) (hown : 0 ≤ own) : 0 ≤ r.adjust own := by
  obtain ⟨rows, hrows, hadjust⟩ | ⟨growth, hgrowth, hadjust⟩ := h.adjust_cases
  · rwa [hadjust]
  · exact hadjust own ▸ mul_nonneg hown hgrowth

theorem NonNegative.adjust_le (h : r.NonNegative) (hle : own ≤ own') :
    r.adjust own ≤ r.adjust own' := by
  obtain ⟨rows, -, hadjust⟩ | ⟨growth, hgrowth, hadjust⟩ := h.adjust_cases
  · rw [hadjust, hadjust]
  · rw [hadjust, hadjust]
    exact mul_le_mul_of_nonneg_right hle hgrowth

end HintRecord

namespace HintRegistry

/-- No average in any record is below zero. -/
def NonNegative (g : HintRegistry) : Prop := ∀ r, (g.record r).NonNegative

variable {g g' : HintRegistry} {n : Plan}

theorem NonNegative.newRecord (h : g.NonNegative) : g.newRecord.2.NonNegative := by
  intro r
  by_cases hr : r = g.nextRecord
  · simp only [HintRegistry.newRecord, record, lookup_putAt, if_pos hr]
    exact HintRecord.nonNegative_empty
  · exact record_newRecord hr ▸ h r

theorem NonNegative.recordFor (h : g.NonNegative) : (g.recordFor n).2.NonNegative := by
  unfold HintRegistry.recordFor
  split
  · exact h
  · exact h.newRecord

theorem NonNegative.set {r : Nat} {hint : Hint} {value : Value} (h : g.NonNegative)
    (hset : g.set r hint value = .ok g') : g'.NonNegative := by
  intro r'
  by_cases hr : r' = r
  · subst hr
    exact (h r').set (set_eq_ok hset)
  · exact (writes_set hset).record r' hr ▸ h r'

theorem NonNegative.setAll (h : g.NonNegative) (r : Nat) (values : List (Text × Value)) :
    (g.setAll n r values).registry.NonNegative := by
  fun_induction HintRegistry.setAll g n r values with
  | case3 g name value rest hint hname g' hset ih => exact ih (h.set hset)
  | case1 | case2 | case4 | case5 | case6 => exact h

/-- Whatever calls are made, no average is ever below zero. -/
theorem nonNegative_after (calls : List Action) : (after calls).NonNegative := by
  induction calls using List.reverseRecOn with
  | nil => exact fun r => HintRecord.nonNegative_empty
  | append_singleton calls a ih =>
    rw [after_concat]
    cases a with
    | newRecord => exact ih.newRecord
    | hintsFor n => exact ih.recordFor
    | apply n values => exact ih.recordFor.setAll _ values
    | attach | discard | get | contains => exact ih
    | set r hint value =>
      rw [act]
      split
      · exact ih.set ‹_›
      · exact ih

end HintRegistry

/-! ## Estimates as numbers -/

section Estimates

open Arithmetic

theorem atMostOne_eq_min (x : Rat) : atMostOne x = min x 1 := by
  simp only [atMostOne, lt, ofRat, decide_eq_true_eq]
  split
  · exact (min_eq_left (le_of_lt ‹_›)).symm
  · exact (min_eq_right (not_lt.mp ‹_›)).symm

/-- The rows of a join, from the rows of its inputs and the share of pairs that meet its
condition, if it has one. -/
def JoinKind.rows (left right : Rat) : JoinKind → Option Rat → Rat
  | _, none => left * right
  | inner, some share => left * right * share
  | semi, some share => left * min (right * share) 1
  | anti, some share => left * (1 - min (right * share) 1)

namespace CostModel

/-- The hints of a node. A node without a record has those of an empty one. -/
def recordOf (m : CostModel) (n : Plan) : HintRecord := (m.hints n).getD {}

/-- The exact number of rows of a plan. -/
def rows (m : CostModel) (p : Plan) : Rat :=
  (m.recordOf p).adjust <|
    match p with
    | .scan .. | .foreign .. => m.config.defaultRowCount
    | .filter _ input predicate => m.rows input * predicate.selectivity
    | .project _ input _ => m.rows input
    | .join _ kind left right condition =>
      kind.rows (m.rows left) (m.rows right) (condition.map Expr.selectivity)

/-- The exact number of bytes of a row. -/
def width (m : CostModel) (n : Plan) : Rat :=
  match (m.recordOf n).bytesPerRecord with
  | some bytes => bytes.exact
  | none => n.rowWidth

/-- The exact cost of a node without its inputs. -/
def charge (m : CostModel) (n : Plan) : Rat :=
  m.rows n * m.config.cpuTupleCost.exact +
    if n.isScan then
      m.rows n * m.width n / m.config.pageSizeBytes * m.config.ioPageCost.exact
    else 0

/-- The exact cost of a plan. -/
def total (m : CostModel) (p : Plan) : Rat := (p.nodes.map m.charge).sum

variable {m : CostModel}

theorem hinted_ok (hints : Option HintRecord) (own : Rat) :
    hinted hints (.ok own) = .ok ((hints.getD {}).adjust own) := by
  cases hints with
  | none => simp [hinted]
  | some r =>
    simp only [hinted, HintRecord.adjust, Option.getD_some]
    cases (r.impliedRows? : Option Rat) <;> rfl

/-- An exact number of rows always exists. -/
theorem cardinality_eq (m : CostModel) (p : Plan) : m.cardinality p = .ok (m.rows p) := by
  induction p with
  | scan | foreign => exact hinted_ok _ _
  | filter _ input predicate ih => rw [cardinality, ih]; exact hinted_ok _ _
  | project _ input _ ih => rw [cardinality, ih]; exact hinted_ok _ _
  | join id kind left right condition ihl ihr =>
    have hown (own : Rat) : hinted (m.hints (.join id kind left right condition)) (.ok own) =
        .ok ((m.recordOf (.join id kind left right condition)).adjust own) := hinted_ok _ own
    rw [cardinality, rows, ← hown, ihl, ihr]
    cases condition with
    | none => cases kind <;> rfl
    | some e =>
      simp only [← atMostOne_eq_min, JoinKind.rows, Option.map_some]
      cases kind <;> rfl

theorem recordBytes_eq (m : CostModel) (n : Plan) : m.recordBytes n = .ok (m.width n) := by
  unfold recordBytes width recordOf
  cases m.hints n with
  | none => rfl
  | some r => cases hbytes : r.bytesPerRecord <;> simp [hbytes] <;> rfl

theorem ownCost_eq (hpage : m.config.pageSizeBytes ≠ 0) (n : Plan) :
    m.ownCost n = .ok (m.charge n) := by
  have hfactor (x : Number) : (Estimate.ofNumber x : Estimate Rat) = .ok x.exact := by
    cases x <;> rfl
  have hquotient (x : Rat) : (Estimate.quotient x m.config.pageSizeBytes : Estimate Rat) =
      .ok (x / m.config.pageSizeBytes) := if_neg hpage
  unfold ownCost charge
  cases n with
  | scan =>
    simp only [cardinality_eq, recordBytes_eq, hfactor, hquotient, Bind.bind, Except.bind,
      Plan.isScan, if_true]
    rfl
  | filter | project | join | foreign =>
    simp only [cardinality_eq, hfactor, Bind.bind, Except.bind, Plan.isScan]
    exact congrArg Except.ok (add_zero _).symm

theorem addCosts_eq {ps : List Plan} (h : ∀ p ∈ ps, m.cost p = .ok (m.total p)) (sum : Rat) :
    m.addCosts sum ps = .ok (sum + (ps.map m.total).sum) := by
  induction ps generalizing sum with
  | nil => exact congrArg Except.ok (add_zero _).symm
  | cons p ps ih =>
    obtain ⟨hp, hps⟩ := List.forall_mem_cons.mp h
    rw [List.map_cons, List.sum_cons, ← add_assoc, ← ih hps, addCosts, hp]
    rfl

/-- An exact cost exists if pages have a size, and it is what all nodes are charged for. -/
theorem cost_eq (hpage : m.config.pageSizeBytes ≠ 0) (p : Plan) : m.cost p = .ok (m.total p) := by
  induction p using Plan.induction with
  | scan =>
    rw [cost, ownCost_eq hpage]
    exact congrArg Except.ok (add_zero _).symm
  | filter _ _ _ ih | project _ _ _ ih =>
    simp only [cost, ownCost_eq hpage, ih, Bind.bind, Except.bind]
    rfl
  | foreign id kind children ih =>
    have htotal : m.total (.foreign id kind children) =
        m.charge (.foreign id kind children) + (children.map m.total).sum := by
      rw [total, Plan.nodes, Plan.nodesAll_eq, List.map_cons, List.sum_cons, List.map_flatMap,
        List.flatMap, List.sum_flatten, List.map_map]
      rfl
    rw [htotal, ← addCosts_eq ih, cost, ownCost_eq hpage]
    rfl
  | join _ _ left right _ ihl ihr =>
    simp only [cost, ownCost_eq hpage, ihl, ihr, Bind.bind, Except.bind, total, Plan.nodes,
      List.map_cons, List.map_append, List.sum_cons, List.sum_append, ← add_assoc]
    rfl

/-! The rows of a node without hints of its own. -/

section Bare

variable {id : Nat} {input left right : Plan}

theorem rows_filter {predicate : Expr} (h : m.recordOf (.filter id input predicate) = {}) :
    m.rows (.filter id input predicate) = m.rows input * predicate.selectivity := by
  rw [rows, h, HintRecord.adjust_empty]

theorem rows_project {outputs : List Output} (h : m.recordOf (.project id input outputs) = {}) :
    m.rows (.project id input outputs) = m.rows input := by
  rw [rows, h, HintRecord.adjust_empty]

theorem rows_join {kind : JoinKind} {condition : Option Expr}
    (h : m.recordOf (.join id kind left right condition) = {}) :
    m.rows (.join id kind left right condition) =
      kind.rows (m.rows left) (m.rows right) (condition.map Expr.selectivity) := by
  rw [rows, h, HintRecord.adjust_empty]

theorem rows_foreign {kind : ForeignKind} {children : List Plan}
    (h : m.recordOf (.foreign id kind children) = {}) :
    m.rows (.foreign id kind children) = m.config.defaultRowCount := by
  rw [rows, h, HintRecord.adjust_empty]

end Bare

end CostModel

end Estimates

/-! ## Models in range -/

/-- The numbers that the model estimates with are in their ranges. -/
structure CostModel.Sound (m : CostModel) : Prop where
  config : m.config.InRange
  hints : ∀ n, (m.recordOf n).NonNegative

/-- What estimates depend on, with the hints of a registry. -/
def HintRegistry.costModel (g : HintRegistry) (c : CostConfig) : CostModel :=
  { config := c, hints := g.get? }

theorem HintRegistry.recordOf_costModel {g : HintRegistry} {n : Plan} (h : g.recordOf? n = none)
    (c : CostConfig) : (g.costModel c).recordOf n = {} := by
  simp [CostModel.recordOf, costModel, get?, h]

theorem HintRegistry.NonNegative.sound {g : HintRegistry} (h : g.NonNegative) {c : CostConfig}
    (hc : c.InRange) : (g.costModel c).Sound where
  config := hc
  hints n := by
    cases hrecord : g.recordOf? n with
    | none => exact recordOf_costModel hrecord c ▸ HintRecord.nonNegative_empty
    | some r => simpa [CostModel.recordOf, costModel, get?, hrecord] using h r

/-- So are those of an accepted configuration and of hints that were set by any calls. -/
theorem CostConfig.Accepted.sound {c : CostConfig} (hc : c.Accepted)
    (calls : List HintRegistry.Action) : ((HintRegistry.after calls).costModel c).Sound :=
  (HintRegistry.nonNegative_after calls).sound hc.inRange

/-! ## An example -/

/-- Hints for the orders that are read: how many keys they have, with three of them for each. -/
def ordersCalls (keys : Int) : List HintRegistry.Action :=
  [.apply (.scan 0 "orders" []) [("key_cardinality", .int keys), ("avg_values_per_key", .int 3)]]

theorem recordOf_ordersCalls (keys : Int) (c : CostConfig) {n : Plan} (hn : n.id ≠ 0) :
    ((HintRegistry.after (ordersCalls keys)).costModel c).recordOf n = {} := by
  refine HintRegistry.recordOf_costModel ?_ c
  exact HintRegistry.recordOf?_apply.trans (HintRegistry.recordOf?_recordFor.trans (if_neg hn))

end Semijoin
