import Mathlib.Tactic.Ring
import Semijoin.Proofs.Exact

/-!
# Ranges of estimates

Over exact rationals a selectivity is a share, between none and all of the rows. So a filter, a semi
join and an anti join have at most the rows of their (left) input, and no estimate is below zero.
Every node is charged something that is not below zero, so the cost of a plan is at least that of
each of its parts.
-/

namespace Semijoin

/-! ## Shares -/

/-- A share lies between none and all. -/
def IsShare (x : Rat) : Prop := 0 ≤ x ∧ x ≤ 1

section Shares

variable {x y : Rat}

theorem IsShare.mul (hx : IsShare x) (hy : IsShare y) : IsShare (x * y) :=
  ⟨mul_nonneg hx.1 hy.1, mul_le_one₀ hx.2 hy.1 hy.2⟩

theorem IsShare.compl (hx : IsShare x) : IsShare (1 - x) :=
  ⟨sub_nonneg.2 hx.2, sub_le_self 1 hx.1⟩

theorem isShare_min (hx : 0 ≤ x) : IsShare (min x 1) := ⟨le_min hx zero_le_one, min_le_right x 1⟩

theorem IsShare.mul_le (hx : IsShare x) (hy : 0 ≤ y) : y * x ≤ y :=
  mul_le_of_le_one_right hy hx.2

end Shares

/-- The selectivity of an expression is a share, whatever kinds of expressions occur in it. -/
theorem Expr.isShare_selectivity (e : Expr) : IsShare e.selectivity := by
  have hshare {x : Rat} (h : 0 ≤ x ∧ x ≤ 1) : IsShare x := h
  -- Only the connectives combine selectivities; everything else has a constant one.
  fun_induction Expr.selectivity (α := Rat) e with
  | case1 left right ihl ihr => exact ihl.mul ihr
  | case2 left right ihl ihr => exact (ihl.compl.mul ihr.compl).compl
  | case9 operand ih => exact ih.compl
  | _ => exact hshare (by decide +kernel)

/-- So is that of the condition of a join, if there is one. -/
theorem isShare_of_mem_map {condition : Option Expr} {x : Rat}
    (hx : x ∈ condition.map Expr.selectivity) : IsShare x := by
  obtain ⟨e, -, rfl⟩ := Option.map_eq_some_iff.1 hx
  exact e.isShare_selectivity

/-! ## Rows -/

section Rows

variable {kind : JoinKind} {left right share : Rat}

theorem JoinKind.rows_nonneg (hl : 0 ≤ left) (hr : 0 ≤ right) {share : Option Rat}
    (hshare : ∀ x ∈ share, IsShare x) : 0 ≤ kind.rows left right share := by
  cases share with
  | none => cases kind <;> exact mul_nonneg hl hr
  | some x =>
    have hx : IsShare x := hshare x rfl
    have hmatching : IsShare (min (right * x) 1) := isShare_min (mul_nonneg hr hx.1)
    cases kind with
    | inner => exact mul_nonneg (mul_nonneg hl hr) hx.1
    | semi => exact mul_nonneg hl hmatching.1
    | anti => exact mul_nonneg hl hmatching.compl.1

/-- A join that only keeps or drops left rows has no more than those. -/
theorem JoinKind.rows_le (hkind : kind.isFiltering) (hl : 0 ≤ left) (hr : 0 ≤ right)
    (hshare : IsShare share) : kind.rows left right (some share) ≤ left := by
  have hmatching : IsShare (min (right * share) 1) := isShare_min (mul_nonneg hr hshare.1)
  cases kind with
  | inner => exact absurd hkind (by decide)
  | semi => exact hmatching.mul_le hl
  | anti => exact hmatching.compl.mul_le hl

/-- Every left row is kept by the one join or by the other. -/
theorem JoinKind.rows_semi_add_anti (left right share : Rat) :
    semi.rows left right (some share) + anti.rows left right (some share) = left := by
  simp only [JoinKind.rows]
  ring

end Rows

namespace CostModel

variable {m : CostModel}

theorem Sound.rows_nonneg (h : m.Sound) (p : Plan) : 0 ≤ m.rows p := by
  have hleaf : (0 : Rat) ≤ m.config.defaultRowCount := Int.cast_nonneg h.config.rowCount
  induction p with
  | scan | foreign => exact (h.hints _).adjust_nonneg hleaf
  | filter _ _ predicate ih =>
    exact (h.hints _).adjust_nonneg (mul_nonneg ih predicate.isShare_selectivity.1)
  | project _ _ _ ih => exact (h.hints _).adjust_nonneg ih
  | join _ _ _ _ _ ihl ihr =>
    exact (h.hints _).adjust_nonneg (JoinKind.rows_nonneg ihl ihr fun _ => isShare_of_mem_map)

/-! ## Costs -/

theorem Sound.width_nonneg (h : m.Sound) (n : Plan) : 0 ≤ m.width n := by
  unfold width
  cases hbytes : (m.recordOf n).bytesPerRecord with
  | none => exact Nat.cast_nonneg _
  | some bytes => exact h.hints n .bytesPerRecord bytes (by simp [HintRecord.get?, hbytes])

theorem Sound.charge_nonneg (h : m.Sound) (n : Plan) : 0 ≤ m.charge n := by
  have hrows : 0 ≤ m.rows n := h.rows_nonneg n
  have hpage : (0 : Rat) ≤ m.config.pageSizeBytes := Int.cast_nonneg h.config.pageSize.le
  have hpages : 0 ≤ m.rows n * m.width n / m.config.pageSizeBytes :=
    div_nonneg (mul_nonneg hrows (h.width_nonneg n)) hpage
  refine add_nonneg (mul_nonneg hrows (Number.exact_nonneg h.config.cpuCost)) ?_
  split
  · exact mul_nonneg hpages (Number.exact_nonneg h.config.ioCost)
  · exact le_rfl

theorem Sound.total_nonneg (h : m.Sound) (p : Plan) : 0 ≤ m.total p :=
  List.sum_nonneg fun x hx => by
    obtain ⟨n, -, rfl⟩ := List.mem_map.1 hx
    exact h.charge_nonneg n

theorem Sound.total_le (h : m.Sound) {n p : Plan} (hn : n ∈ p.nodes) : m.total n ≤ m.total p :=
  ((Plan.nodes_sublist hn).map m.charge).sum_le_sum fun x hx => by
    obtain ⟨n, -, rfl⟩ := List.mem_map.1 hx
    exact h.charge_nonneg n

/-! ## What estimates are bounded by -/

/-- Exact estimates exist and stay in their ranges, at every node of a plan. -/
structure Bounded (m : CostModel) (p : Plan) : Prop where
  cardinality_eq : ∀ n, m.cardinality n = .ok (m.rows n)
  cost_eq : ∀ n, m.cost n = .ok (m.total n)
  rows_nonneg : ∀ n ∈ p.nodes, 0 ≤ m.rows n
  /-- A filter without hints of its own has at most the rows of its input. -/
  filter_le : ∀ id input predicate, .filter id input predicate ∈ p.nodes →
    m.recordOf (.filter id input predicate) = {} →
      m.rows (.filter id input predicate) ≤ m.rows input
  /-- So has a semi or anti join, compared to its left input. -/
  join_le : ∀ id kind left right condition, kind.isFiltering →
    .join id kind left right condition ∈ p.nodes →
      m.recordOf (.join id kind left right condition) = {} →
        m.rows (.join id kind left right condition) ≤ m.rows left
  /-- A semi and an anti join over the same inputs divide the left rows between them. -/
  partition : ∀ left right condition semiId antiId,
    m.recordOf (.join semiId .semi left right (some condition)) = {} →
      m.recordOf (.join antiId .anti left right (some condition)) = {} →
        m.rows (.join semiId .semi left right (some condition)) +
          m.rows (.join antiId .anti left right (some condition)) = m.rows left
  total_nonneg : 0 ≤ m.total p
  total_le : ∀ n ∈ p.nodes, m.total n ≤ m.total p

theorem Sound.bounded (h : m.Sound) {p : Plan} (hp : p.Checked) : m.Bounded p where
  cardinality_eq := m.cardinality_eq
  cost_eq := CostModel.cost_eq h.config.pageSize.ne'
  rows_nonneg n _ := h.rows_nonneg n
  filter_le id input predicate _ hbare := by
    rw [rows_filter hbare]
    exact predicate.isShare_selectivity.mul_le (h.rows_nonneg input)
  join_le id kind left right condition hkind hmem hbare := by
    obtain ⟨e, rfl⟩ := exists_condition_of_checkJoin hkind (hp _ hmem)
    rw [rows_join hbare]
    exact JoinKind.rows_le hkind (h.rows_nonneg left) (h.rows_nonneg right) e.isShare_selectivity
  partition left right condition semiId antiId hsemi hanti := by
    rw [rows_join hsemi, rows_join hanti]
    exact JoinKind.rows_semi_add_anti _ _ _
  total_nonneg := h.total_nonneg p
  total_le _ hn := h.total_le hn

end CostModel

/-- Whatever the accepted settings are and whatever calls have set hints, selectivities are shares
and the exact estimates of a plan that passed its checks are bounded. -/
theorem estimates_bounded {c : CostConfig} (hc : c.Accepted) (calls : List HintRegistry.Action)
    {p : Plan} (hp : p.Checked) :
    (∀ e : Expr, IsShare e.selectivity) ∧ ((HintRegistry.after calls).costModel c).Bounded p :=
  ⟨Expr.isShare_selectivity, (hc.sound calls).bounded hp⟩

theorem openOrders_bounded :
    ({ cpuTupleCost := .int 2, pageSizeBytes := 512 } : CostConfig).Accepted ∧ openOrders.Checked ∧
      ((HintRegistry.after (ordersCalls 40)).costModel
        { cpuTupleCost := .int 2, pageSizeBytes := 512 }).Bounded openOrders :=
  ⟨smallPages_accepted, openOrders_built.checked,
    (estimates_bounded smallPages_accepted (ordersCalls 40) openOrders_built.checked).2⟩

example : ((HintRegistry.after (ordersCalls 40)).costModel {}).rows openOrders = 12 := by
  decide +kernel

end Semijoin
