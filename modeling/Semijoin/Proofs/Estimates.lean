import Semijoin.Cost.Estimate
import Semijoin.Proofs.Built
import Semijoin.Proofs.Documents
import Semijoin.Proofs.Rounding

/-!
# When there is an estimate

An accepted configuration has a page size above zero and no number below zero, so nothing is ever
divided by zero. Its integers have no upper bound, though, while estimates run on doubles. Whether
an estimate exists does not depend on the numbers that come up on the way, only on whether the
integers that it converts are small enough.
-/

namespace Semijoin

/-! ## Accepted settings -/

/-- The settings are in the range that is asked of them. -/
structure CostConfig.InRange (c : CostConfig) : Prop where
  pageSize : 0 < c.pageSizeBytes
  cpuCost : c.cpuTupleCost.isNegative = false
  ioCost : c.ioPageCost.isNegative = false
  rowCount : 0 ≤ c.defaultRowCount
  columnWidth : 0 ≤ c.defaultColumnWidth

/-- A configuration of the cost model that was accepted, by itself or as part of a document. -/
inductive CostConfig.Accepted : CostConfig → Prop where
  | ofSettings {settings : Settings} {c : CostConfig} (h : CostConfig.ofSettings settings = .ok c) :
      Accepted c
  | load {Fault : Type} {parse : String → Except Fault Value} {path : String}
      {text : Option String} {config : Config} (h : Config.load parse path text = .ok config) :
      Accepted config.cost

theorem checkNotNegative_eq_ok_iff {name : String} {n : Number} :
    checkNotNegative name n = .ok () ↔ n.isNegative = false := by
  unfold checkNotNegative
  split <;> simp_all

theorem Number.isNegative_int_eq_false_iff {n : Int} :
    (Number.int n).isNegative = false ↔ 0 ≤ n := by
  simp [isNegative]

theorem CostConfig.inRange_of_ofSettings {settings : Settings} {c : CostConfig}
    (h : CostConfig.ofSettings settings = .ok c) : c.InRange := by
  unfold CostConfig.ofSettings at h
  obtain ⟨cpu, -, h⟩ := bind_eq_ok_iff.mp h
  obtain ⟨io, -, h⟩ := bind_eq_ok_iff.mp h
  obtain ⟨page, -, h⟩ := bind_eq_ok_iff.mp h
  obtain ⟨rows, -, h⟩ := bind_eq_ok_iff.mp h
  obtain ⟨width, -, h⟩ := bind_eq_ok_iff.mp h
  dsimp only at h
  split at h
  · cases h
  · next hpage =>
    obtain ⟨_, hcpu, h⟩ := bind_eq_ok_iff.mp h
    obtain ⟨_, hio, h⟩ := bind_eq_ok_iff.mp h
    obtain ⟨_, hrows, h⟩ := bind_eq_ok_iff.mp h
    obtain ⟨_, hwidth, h⟩ := bind_eq_ok_iff.mp h
    cases h
    exact {
      pageSize := Int.not_le.mp hpage
      cpuCost := checkNotNegative_eq_ok_iff.mp hcpu
      ioCost := checkNotNegative_eq_ok_iff.mp hio
      rowCount := Number.isNegative_int_eq_false_iff.mp (checkNotNegative_eq_ok_iff.mp hrows)
      columnWidth := Number.isNegative_int_eq_false_iff.mp (checkNotNegative_eq_ok_iff.mp hwidth) }

/-- The default settings are accepted like any others. -/
theorem CostConfig.inRange_default : ({} : CostConfig).InRange :=
  ⟨by decide, by decide +kernel, by decide +kernel, by decide, by decide⟩

theorem CostConfig.Accepted.inRange {c : CostConfig} (h : c.Accepted) : c.InRange := by
  cases h with
  | ofSettings h => exact inRange_of_ofSettings h
  | @load _ _ path text config h =>
    cases text with
    | none => cases h
    | some text =>
      obtain ⟨document, -, hdocument⟩ := bind_eq_ok_iff.mp h
      obtain ⟨sections, -, -, -, hcost, -⟩ :=
        Config.ofDocument_eq_ok (mapError_eq_ok_iff.mp hdocument)
      obtain ⟨-, hdefault⟩ | ⟨settings, -, -, hsettings⟩ := Config.readSection_eq_ok hcost
      · exact hdefault ▸ inRange_default
      · exact inRange_of_ofSettings hsettings

/-! ## Estimates -/

section Returns

variable {ε β γ : Type} {x : Except ε β} {f : β → Except ε γ}

/-- The computation has a result. -/
def Returns (x : Except ε β) : Prop := ∃ a, x = .ok a

@[simp] theorem returns_ok (a : β) : Returns (.ok a : Except ε β) := ⟨a, rfl⟩

@[simp] theorem returns_pure (a : β) : Returns (pure a : Except ε β) := ⟨a, rfl⟩

/-- Where it does not matter for the second part what the first one returns. -/
theorem returns_bind_iff {P : Prop} (h : ∀ a, Returns (f a) ↔ P) :
    Returns (x >>= f) ↔ Returns x ∧ P := by
  constructor
  · rintro ⟨b, hb⟩
    obtain ⟨a, hx, hf⟩ := bind_eq_ok_iff.mp hb
    exact ⟨⟨a, hx⟩, (h a).mp ⟨b, hf⟩⟩
  · rintro ⟨⟨a, hx⟩, hP⟩
    obtain ⟨b, hf⟩ := (h a).mpr hP
    exact ⟨b, bind_eq_ok_iff.mpr ⟨a, hx, hf⟩⟩

/-- Where the second part always returns. -/
theorem returns_bind_iff_left (h : ∀ a, Returns (f a)) : Returns (x >>= f) ↔ Returns x :=
  (returns_bind_iff fun a => iff_true_intro (h a)).trans (and_true _).to_iff

end Returns

section Estimates

variable {α : Type} [Arithmetic α] {c : CostConfig}

variable (α) in
/-- The integer is a number to compute with. -/
def Converts (n : Int) : Prop := ∃ x : α, Arithmetic.ofInt? n = some x

variable (α) in
/-- The number is one to compute with; a double always is. -/
def Number.Converts : Number → Prop
  | int n => Semijoin.Converts α n
  | float _ => True

theorem returns_ofInt_iff {n : Int} : Returns (.ofInt n : Estimate α) ↔ Converts α n := by
  unfold Estimate.ofInt Converts
  cases (Arithmetic.ofInt? n : Option α) <;> simp [Returns]

theorem returns_ofNumber_iff {n : Number} :
    Returns (.ofNumber n : Estimate α) ↔ n.Converts α := by
  cases n with
  | int n => exact returns_ofInt_iff
  | float x => exact iff_of_true (returns_ok _) trivial

theorem returns_quotient_iff {x : α} {n : Int} (hn : n ≠ 0) :
    Returns (.quotient x n : Estimate α) ↔ Converts α n := by
  rw [← returns_ofInt_iff, Estimate.quotient]
  exact returns_bind_iff_left fun y => by simp [hn]

/-- Whether the node reads a relation. -/
def Plan.isScan : Plan → Bool
  | scan .. => true
  | _ => false

namespace CostModel

/-- The model without any hints. -/
def unhinted (c : CostConfig) : CostModel := { config := c }

theorem returns_cardinality_iff (p : Plan) :
    Returns ((unhinted c).cardinality p : Estimate α) ↔ Converts α c.defaultRowCount := by
  induction p with
  | scan | foreign => exact returns_ofInt_iff
  | filter _ input _ ih => exact (returns_bind_iff_left fun _ => returns_pure _).trans ih
  | project _ input _ ih => exact ih
  | join _ kind left right condition ihl ihr =>
    refine (returns_bind_iff fun _ => (returns_bind_iff_left fun _ => ?_).trans ihr).trans ?_
    · cases condition <;> cases kind <;> exact returns_pure _
    · rw [ihl, and_self_iff]

theorem returns_recordBytes_iff (p : Plan) :
    Returns ((unhinted c).recordBytes p : Estimate α) ↔ Converts α p.rowWidth :=
  returns_ofInt_iff

variable (α) in
/-- What the cost of a node without its inputs is computed from converts. Only a scan reads
pages. -/
def NodeConverts (c : CostConfig) (n : Plan) : Prop :=
  Converts α c.defaultRowCount ∧ c.cpuTupleCost.Converts α ∧
    (n.isScan → Converts α n.rowWidth ∧ Converts α c.pageSizeBytes ∧ c.ioPageCost.Converts α)

theorem returns_ownCost_iff (hpage : c.pageSizeBytes ≠ 0) (p : Plan) :
    Returns ((unhinted c).ownCost p : Estimate α) ↔ NodeConverts α c p := by
  unfold ownCost NodeConverts
  rw [← returns_cardinality_iff (α := α) (c := c) p, ← returns_ofNumber_iff]
  refine returns_bind_iff fun rows => returns_bind_iff fun factor => ?_
  cases p with
  | scan id relation fields =>
    simp only [Plan.isScan, forall_const]
    rw [← returns_recordBytes_iff (c := c), ← returns_ofNumber_iff (n := c.ioPageCost)]
    refine returns_bind_iff fun bytes => ?_
    rw [← returns_quotient_iff hpage]
    exact returns_bind_iff fun pages => returns_bind_iff_left fun _ => returns_pure _
  | filter | project | join | foreign => simp [Plan.isScan]

/-- What the costs of some plans are added to does not matter for whether the sum exists. -/
theorem returns_addCosts_iff {ps : List Plan}
    (h : ∀ p ∈ ps, Returns ((unhinted c).cost p : Estimate α) ↔ p.All (NodeConverts α c))
    (sum : α) :
    Returns ((unhinted c).addCosts sum ps) ↔ ∀ p ∈ ps, p.All (NodeConverts α c) := by
  induction ps generalizing sum with
  | nil => exact iff_of_true (returns_pure _) fun _ hp => nomatch hp
  | cons p ps ih =>
    obtain ⟨hp, hps⟩ := List.forall_mem_cons.mp h
    rw [List.forall_mem_cons, ← hp, addCosts]
    exact returns_bind_iff fun _ => ih hps _

/-- Every node of a plan is charged for, so the numbers of every node have to convert. -/
theorem returns_cost_iff (hpage : c.pageSizeBytes ≠ 0) (p : Plan) :
    Returns ((unhinted c).cost p : Estimate α) ↔ p.All (NodeConverts α c) := by
  induction p using Plan.induction with
  | scan =>
    rw [Plan.all_scan, ← returns_ownCost_iff hpage, cost]
    exact returns_bind_iff_left fun _ => returns_pure _
  | filter _ input _ ih =>
    rw [Plan.all_filter, ← returns_ownCost_iff hpage, ← ih, cost]
    exact returns_bind_iff fun _ => returns_bind_iff_left fun _ => returns_pure _
  | project _ input _ ih =>
    rw [Plan.all_project, ← returns_ownCost_iff hpage, ← ih, cost]
    exact returns_bind_iff fun _ => returns_bind_iff_left fun _ => returns_pure _
  | foreign _ _ children ih =>
    rw [Plan.all_foreign, ← returns_ownCost_iff hpage, cost]
    exact returns_bind_iff fun own => returns_addCosts_iff ih own
  | join _ _ left right _ ihl ihr =>
    rw [Plan.all_join, ← returns_ownCost_iff hpage, ← ihl, ← ihr, cost]
    exact returns_bind_iff fun _ => returns_bind_iff fun _ =>
      returns_bind_iff_left fun _ => returns_pure _

end CostModel

end Estimates

/-! ## Bounds -/

open Binary64 (intLimit)

/-- The number is a double or an integer that can become one. -/
def Number.Fits : Number → Prop
  | int n => n < intLimit
  | float _ => True

theorem converts_iff {n : Int} (h : 0 ≤ n) : Converts Binary64 n ↔ n < intLimit :=
  Binary64.exists_ofInt?_iff h

theorem Number.converts_iff {n : Number} (h : n.isNegative = false) :
    n.Converts Binary64 ↔ n.Fits := by
  cases n with
  | int m => exact Semijoin.converts_iff (Number.isNegative_int_eq_false_iff.mp h)
  | float x => exact Iff.rfl

/-- Under an accepted configuration and without hints, the rows of a plan can be estimated just if
the default row count can become a double; the bytes of a row just if their number can; and the cost
just if the row count and the factor for tuples can, and for every scan the bytes of its rows, the
page size and the factor for pages. -/
theorem CostConfig.Accepted.estimates_return_iff {c : CostConfig} (hc : c.Accepted) (p : Plan) :
    (Returns ((CostModel.unhinted c).cardinality p : Estimate Binary64) ↔
      c.defaultRowCount < intLimit) ∧
    (Returns ((CostModel.unhinted c).recordBytes p : Estimate Binary64) ↔
      p.rowWidth < intLimit) ∧
    (Returns ((CostModel.unhinted c).cost p : Estimate Binary64) ↔
      c.defaultRowCount < intLimit ∧ c.cpuTupleCost.Fits ∧ p.All fun n =>
        n.isScan → n.rowWidth < intLimit ∧ c.pageSizeBytes < intLimit ∧ c.ioPageCost.Fits) := by
  have hrange := hc.inRange
  have hwidth (n : Plan) : Converts Binary64 n.rowWidth ↔ n.rowWidth < intLimit :=
    (converts_iff (Int.natCast_nonneg _)).trans Int.ofNat_lt
  refine ⟨?_, ?_, ?_⟩
  · rw [CostModel.returns_cardinality_iff, converts_iff hrange.rowCount]
  · rw [CostModel.returns_recordBytes_iff, hwidth]
  · rw [CostModel.returns_cost_iff hrange.pageSize.ne']
    have hnode (n : Plan) : CostModel.NodeConverts Binary64 c n ↔
        c.defaultRowCount < intLimit ∧ c.cpuTupleCost.Fits ∧
          (n.isScan → n.rowWidth < intLimit ∧ c.pageSizeBytes < intLimit ∧ c.ioPageCost.Fits) := by
      rw [CostModel.NodeConverts, converts_iff hrange.rowCount, hwidth,
        converts_iff hrange.pageSize.le, Number.converts_iff hrange.cpuCost,
        Number.converts_iff hrange.ioCost]
    constructor
    · intro hall
      obtain ⟨hrows, hcpu, -⟩ := (hnode p).mp hall.self
      exact ⟨hrows, hcpu, hall.imp fun n hn => ((hnode n).mp hn).2.2⟩
    · rintro ⟨hrows, hcpu, hscans⟩
      exact hscans.imp fun n hn => (hnode n).mpr ⟨hrows, hcpu, hn⟩

/-- A scan of one column. -/
def orderScan : Plan := .scan 0 "Orders" [⟨"id", .integer, false⟩]

theorem smallPages_accepted :
    ({ cpuTupleCost := .int 2, pageSizeBytes := 512 } : CostConfig).Accepted := by
  have h : CostConfig.ofSettings [("cpu_tuple_cost", .int 2), ("page_size_bytes", .int 512)] =
      .ok { cpuTupleCost := .int 2, pageSizeBytes := 512 } := rfl
  exact .ofSettings h

theorem orderScan_estimates_return :
    let m := CostModel.unhinted { cpuTupleCost := .int 2, pageSizeBytes := 512 }
    Returns (m.cardinality orderScan : Estimate Binary64) ∧
      Returns (m.recordBytes orderScan : Estimate Binary64) ∧
      Returns (m.cost orderScan : Estimate Binary64) := by
  obtain ⟨hcard, hbytes, hcost⟩ := smallPages_accepted.estimates_return_iff orderScan
  have hwidth : orderScan.rowWidth < intLimit := by decide +kernel
  have hcpu : (2 : Int) < intLimit := by decide +kernel
  refine ⟨hcard.mpr (by decide +kernel), hbytes.mpr hwidth, hcost.mpr ?_⟩
  exact ⟨by decide +kernel, hcpu,
    Plan.all_scan.mpr fun _ => ⟨hwidth, by decide +kernel, trivial⟩⟩

/-- A row count from zero on is accepted, however large it is. -/
theorem CostConfig.ofSettings_rowCount {n : Int} (h : 0 ≤ n) :
    CostConfig.ofSettings [("default_row_count", .int n)] = .ok { defaultRowCount := n } := by
  have hcpu : checkNotNegative "cpu_tuple_cost" ({} : CostConfig).cpuTupleCost = .ok () :=
    checkNotNegative_eq_ok_iff.mpr inRange_default.cpuCost
  have hn : checkNotNegative "default_row_count" (.int n) = .ok () :=
    checkNotNegative_eq_ok_iff.mpr (Number.isNegative_int_eq_false_iff.mpr h)
  calc CostConfig.ofSettings [("default_row_count", .int n)]
      = (checkNotNegative "cpu_tuple_cost" ({} : CostConfig).cpuTupleCost).bind fun _ =>
          (checkNotNegative "default_row_count" (.int n)).bind fun _ =>
            .ok { defaultRowCount := n } := rfl
    _ = .ok { defaultRowCount := n } := by rw [hcpu, hn]; rfl

/-- Settings with a row count that no double can hold are accepted, and then there is no estimate of
the rows of a scan that passes its check. -/
theorem hugeRowCount_tooLarge :
    CostConfig.ofSettings [("default_row_count", .int (2 ^ 1024))] =
        .ok { defaultRowCount := 2 ^ 1024 } ∧
      orderScan.Checked ∧
      (CostModel.unhinted { defaultRowCount := 2 ^ 1024 }).cardinality orderScan =
        (.error .tooLarge : Estimate Binary64) := by
  have hnone : (Arithmetic.ofInt? (2 ^ 1024) : Option Binary64) = none := by decide +kernel
  refine ⟨CostConfig.ofSettings_rowCount (by positivity), Plan.all_scan.mpr rfl, ?_⟩
  generalize (2 ^ 1024 : Int) = n at hnone ⊢
  change Estimate.ofInt n = _
  rw [Estimate.ofInt, hnone]

end Semijoin
