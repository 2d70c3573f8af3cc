import Semijoin.Proofs.Ranges

/-!
# Estimates and statistics

An estimate grows with the numbers of rows that are expected of the scans. The one place where more
rows make for fewer is the right input of an anti join, so no more may be expected there.
-/

namespace Semijoin

/-- Both estimates exist, and the first is at most the second. -/
def Estimate.AtMost (x y : Estimate Rat) : Prop := ∃ a b, x = .ok a ∧ y = .ok b ∧ a ≤ b

@[simp] theorem Estimate.atMost_ok {a b : Rat} : AtMost (.ok a) (.ok b) ↔ a ≤ b := by
  simp [AtMost]

/-- A property of every node in the right input of an anti join. -/
def Plan.AntiRights (P : Plan → Prop) (p : Plan) : Prop :=
  ∀ id left right condition, .join id .anti left right condition ∈ p.nodes → right.All P

theorem Plan.AntiRights.of_mem {P : Plan → Prop} {p n : Plan} (h : p.AntiRights P)
    (hn : n ∈ p.nodes) : n.AntiRights P :=
  fun _ _ _ _ hmem => h _ _ _ _ (nodes_subset hn hmem)

theorem Plan.AntiRights.child {P : Plan → Prop} {p c : Plan} (h : p.AntiRights P)
    (hc : c ∈ p.children) : c.AntiRights P :=
  h.of_mem (mem_nodes_of_mem_children hc)

/-- More rows on either side make for more rows of the join, but for an anti join they have to be
on the left side. -/
theorem JoinKind.rows_mono {kind : JoinKind} {left left' right right' : Rat} {share : Option Rat}
    (hl₀ : 0 ≤ left) (hr₀ : 0 ≤ right) (hl : left ≤ left') (hr : right ≤ right')
    (hanti : kind = .anti → right = right') (hshare : ∀ x ∈ share, IsShare x) :
    kind.rows left right share ≤ kind.rows left' right' share := by
  have hl₀' : 0 ≤ left' := hl₀.trans hl
  have hproduct : left * right ≤ left' * right' := mul_le_mul hl hr hr₀ hl₀'
  cases share with
  | none => cases kind <;> exact hproduct
  | some x =>
    have hx : IsShare x := hshare x rfl
    have hmatching : IsShare (min (right * x) 1) := isShare_min (mul_nonneg hr₀ hx.1)
    cases kind with
    | inner => exact mul_le_mul_of_nonneg_right hproduct hx.1
    | semi =>
      have hmore : min (right * x) 1 ≤ min (right' * x) 1 :=
        min_le_min_right 1 (mul_le_mul_of_nonneg_right hr hx.1)
      exact mul_le_mul hl hmore hmatching.1 hl₀'
    | anti =>
      obtain rfl := hanti rfl
      exact mul_le_mul_of_nonneg_right hl hmatching.compl.1

namespace CostModel

/-- Two models say the same of a node, except that if it is a scan the second may expect more
rows. -/
structure Below (m m' : CostModel) (n : Plan) : Prop where
  bytes : (m.recordOf n).bytesPerRecord = (m'.recordOf n).bytesPerRecord
  scan : n.isScan → Estimate.AtMost (m.cardinality n) (m'.cardinality n)
  other : n.isScan = false → m.recordOf n = m'.recordOf n

/-- Two models expect the same rows of a node if it is a scan. -/
def SameScan (m m' : CostModel) (n : Plan) : Prop :=
  n.isScan → (m.cardinality n : Estimate Rat) = m'.cardinality n

variable {m m' : CostModel} {p : Plan}

theorem Below.rows_le {n : Plan} (h : m.Below m' n) (hscan : n.isScan) : m.rows n ≤ m'.rows n := by
  have hrows := h.scan hscan
  rwa [cardinality_eq, cardinality_eq, Estimate.atMost_ok] at hrows

/-- Where the scans have equal rows, it does not matter which of the models is the second. -/
theorem Below.symm {n : Plan} (h : m.Below m' n) (hsame : m.SameScan m' n) : m'.Below m n where
  bytes := h.bytes.symm
  scan hscan := by
    have hrows := hsame hscan
    rw [cardinality_eq, cardinality_eq] at hrows ⊢
    exact Estimate.atMost_ok.2 (Except.ok.inj hrows).ge
  other hother := (h.other hother).symm

theorem SameScan.symm {n : Plan} (h : m.SameScan m' n) : m'.SameScan m n := fun hscan =>
  (h hscan).symm

/-- The induction is over both models at once, since below an anti join they change places. -/
theorem Sound.rows_mono (hm : m.Sound) (hm' : m'.Sound) (hconfig : m.config = m'.config)
    (hbelow : p.All (m.Below m')) (hanti : p.AntiRights (m.SameScan m')) :
    m.rows p ≤ m'.rows p := by
  induction p generalizing m m' with
  | scan => exact hbelow.self.rows_le rfl
  | foreign => rw [rows, rows, hbelow.self.other rfl, hconfig]
  | filter _ input predicate ih =>
    have hinput := ih hm hm' hconfig (Plan.all_filter.1 hbelow).2
      (hanti.child (List.mem_singleton_self input))
    rw [rows, rows, ← hbelow.self.other rfl]
    exact (hm.hints _).adjust_le
      (mul_le_mul_of_nonneg_right hinput predicate.isShare_selectivity.1)
  | project _ input _ ih =>
    have hinput := ih hm hm' hconfig (Plan.all_project.1 hbelow).2
      (hanti.child (List.mem_singleton_self input))
    rw [rows, rows, ← hbelow.self.other rfl]
    exact (hm.hints _).adjust_le hinput
  | join id kind left right condition ihl ihr =>
    obtain ⟨hself, hbl, hbr⟩ := Plan.all_join.1 hbelow
    have hal : left.AntiRights (m.SameScan m') := hanti.child (by simp [Plan.children])
    have har : right.AntiRights (m.SameScan m') := hanti.child (by simp [Plan.children])
    have hl := ihl hm hm' hconfig hbl hal
    have hr := ihr hm hm' hconfig hbr har
    -- The right input of an anti join has to be the same: the models differ in nothing there.
    have hright (hkind : kind = .anti) : m.rows right = m'.rows right := by
      subst hkind
      have hsame : right.All (m.SameScan m') := hanti _ _ _ _ (Plan.self_mem_nodes _)
      have hbelow' : right.All (m'.Below m) := fun n hn => (hbr n hn).symm (hsame n hn)
      have hanti' : right.AntiRights (m'.SameScan m) := fun id left right condition hmem =>
        (har id left right condition hmem).imp fun _ => SameScan.symm
      exact le_antisymm hr (ihr hm' hm hconfig.symm hbelow' hanti')
    rw [rows, rows, ← hself.other rfl]
    exact (hm.hints _).adjust_le (JoinKind.rows_mono (hm.rows_nonneg left) (hm.rows_nonneg right)
      hl hr hright fun _ => isShare_of_mem_map)

theorem Sound.charge_mono (hm : m.Sound) {n : Plan} (hconfig : m.config = m'.config)
    (hbelow : m.Below m' n) (hrows : m.rows n ≤ m'.rows n) : m.charge n ≤ m'.charge n := by
  have hwidth : m.width n = m'.width n := by rw [width, width, hbelow.bytes]
  have hcpu := Number.exact_nonneg hm.config.cpuCost
  have hio := Number.exact_nonneg hm.config.ioCost
  have hpage : (0 : Rat) ≤ m.config.pageSizeBytes := Int.cast_nonneg hm.config.pageSize.le
  rw [charge, charge, ← hconfig, ← hwidth]
  refine add_le_add (mul_le_mul_of_nonneg_right hrows hcpu) ?_
  split
  · have hbytes := mul_le_mul_of_nonneg_right hrows (hm.width_nonneg n)
    exact mul_le_mul_of_nonneg_right (div_le_div_of_nonneg_right hbytes hpage) hio
  · exact le_rfl

theorem Sound.total_mono (hm : m.Sound) (hm' : m'.Sound) (hconfig : m.config = m'.config)
    (hbelow : p.All (m.Below m')) (hanti : p.AntiRights (m.SameScan m')) :
    m.total p ≤ m'.total p := by
  refine List.sum_le_sum fun n hn => hm.charge_mono hconfig (hbelow n hn) ?_
  exact hm.rows_mono hm' hconfig (hbelow.of_mem hn) (hanti.of_mem hn)

end CostModel

/-- If one registry expects no more rows of the scans of a plan than another does, and they agree
otherwise, then its exact estimates are no larger. That takes that they agree on the scans in right
inputs of anti joins, too, of which a plan may have none. -/
theorem estimates_monotone {c : CostConfig} (hc : c.Accepted)
    (calls calls' : List HintRegistry.Action) {p : Plan}
    (hbelow : p.All (((HintRegistry.after calls).costModel c).Below
      ((HintRegistry.after calls').costModel c)))
    (hanti : p.AntiRights (((HintRegistry.after calls).costModel c).SameScan
      ((HintRegistry.after calls').costModel c))) :
    Estimate.AtMost (((HintRegistry.after calls).costModel c).cardinality p)
        (((HintRegistry.after calls').costModel c).cardinality p) ∧
      Estimate.AtMost (((HintRegistry.after calls).costModel c).cost p)
        (((HintRegistry.after calls').costModel c).cost p) := by
  have hm := hc.sound calls
  have hm' := hc.sound calls'
  constructor
  · rw [CostModel.cardinality_eq, CostModel.cardinality_eq, Estimate.atMost_ok]
    exact hm.rows_mono hm' rfl hbelow hanti
  · rw [CostModel.cost_eq hm.config.pageSize.ne', CostModel.cost_eq hm'.config.pageSize.ne',
      Estimate.atMost_ok]
    exact hm.total_mono hm' rfl hbelow hanti

/-- The open orders that have no line. -/
def idleOrders : Plan :=
  .join 3 .anti
    (.filter 1 (.scan 0 "orders" [⟨"status", .varchar, false⟩, ⟨"id", .integer, false⟩])
      (.bin .eq (.col ⟨0, .varchar, false, some "status"⟩) (.lit ⟨0, .str "open", .varchar⟩)))
    (.scan 2 "lines" [⟨"order", .integer, true⟩])
    (some (.bin .eq (.col ⟨1, .integer, false, some "id"⟩) (.col ⟨2, .integer, true, none⟩)))

/-- Of more orders more may have no line. -/
theorem idleOrders_monotone :
    let c : CostConfig := { cpuTupleCost := .int 2, pageSizeBytes := 512 }
    let m := (HintRegistry.after (ordersCalls 40)).costModel c
    let m' := (HintRegistry.after (ordersCalls 60)).costModel c
    c.Accepted ∧ idleOrders.All (m.Below m') ∧ idleOrders.AntiRights (m.SameScan m') ∧
      Estimate.AtMost (m.cardinality idleOrders) (m'.cardinality idleOrders) ∧
      Estimate.AtMost (m.cost idleOrders) (m'.cost idleOrders) := by
  intro c m m'
  have hbare (n : Plan) (hn : n.id ≠ 0) : m.recordOf n = m'.recordOf n :=
    (recordOf_ordersCalls 40 c hn).trans (recordOf_ordersCalls 60 c hn).symm
  have hother (n : Plan) (hn : n.id ≠ 0) (hscan : n.isScan = false) : m.Below m' n :=
    ⟨by rw [hbare n hn], fun h => absurd h (by simp [hscan]), fun _ => hbare n hn⟩
  have hscans (n : Plan) (hbytes : (m.recordOf n).bytesPerRecord = (m'.recordOf n).bytesPerRecord)
      (hrows : m.rows n ≤ m'.rows n) (hscan : n.isScan) : m.Below m' n :=
    ⟨hbytes, fun _ => ⟨_, _, m.cardinality_eq n, m'.cardinality_eq n, hrows⟩,
      fun h => absurd hscan (by simp [h])⟩
  have hbelow : idleOrders.All (m.Below m') := by
    simp only [idleOrders, Plan.all_join, Plan.all_filter, Plan.all_scan]
    refine ⟨hother _ (by decide) rfl, ⟨hother _ (by decide) rfl, hscans _ ?_ ?_ rfl⟩,
      hscans _ ?_ ?_ rfl⟩
    all_goals decide +kernel
  have hanti : idleOrders.AntiRights (m.SameScan m') := by
    intro id left right condition hmem
    obtain ⟨-, -, rfl, -⟩ : id = 3 ∧ _ ∧ right = _ ∧ _ := by
      simpa [idleOrders, Plan.nodes] using hmem
    exact Plan.all_scan.2 fun _ => by decide +kernel
  exact ⟨smallPages_accepted, hbelow, hanti,
    estimates_monotone smallPages_accepted _ _ hbelow hanti⟩

end Semijoin
