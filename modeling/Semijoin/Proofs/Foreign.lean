import Semijoin.Proofs.Confluence

/-!
# Runs that fail

A rule cannot move a condition that holds an expression of a foreign kind below a projection, and an
attempt at that ends the whole run. The expression need not be in the condition from the beginning:
a rewrite puts it there when it is what a projection computes. Firings leave what a plan settles to
as it is, and a rule that is stuck somewhere in a plan is stuck in what the plan settles to, too; so
where firings can lead to such a place, no order of them leads around it.
-/

namespace Semijoin

/-! ## Stuck rules stay stuck -/

section Settle

variable {rules : List Rule} {rule : Rule} {next n : Nat} {p q : Plan} {e : Enabled}

section StuckIn

variable {id : Nat} {input left right : Plan} {kind : JoinKind} {condition : Option Expr}

/-! A rule is stuck at joins only. -/

@[simp] theorem Rule.not_stuckIn_scan {relation : Text} {fields : List Field} :
    ¬ rule.StuckIn (.scan id relation fields) := by
  rintro ⟨r, hr, hstuck⟩
  obtain rfl := List.mem_singleton.1 hr
  cases hstuck

@[simp] theorem Rule.stuckIn_filter {predicate : Expr} :
    rule.StuckIn (.filter id input predicate) ↔ rule.StuckIn input := by
  have hroot : ¬ rule.Stuck (.filter id input predicate) := nofun
  simp [StuckIn, Plan.nodes, hroot]

@[simp] theorem Rule.stuckIn_project {outputs : List Output} :
    rule.StuckIn (.project id input outputs) ↔ rule.StuckIn input := by
  have hroot : ¬ rule.Stuck (.project id input outputs) := nofun
  simp [StuckIn, Plan.nodes, hroot]

@[simp] theorem Rule.stuckIn_foreign {foreignKind : ForeignKind} {children : List Plan} :
    rule.StuckIn (.foreign id foreignKind children) ↔ ∃ c ∈ children, rule.StuckIn c := by
  have hroot : ¬ rule.Stuck (.foreign id foreignKind children) := nofun
  simp only [StuckIn, Plan.nodes, Plan.nodesAll_eq, List.mem_cons, List.mem_flatMap]
  grind

theorem Rule.stuckIn_join :
    rule.StuckIn (.join id kind left right condition) ↔
      rule.Stuck (.join id kind left right condition) ∨ rule.StuckIn left ∨ rule.StuckIn right := by
  simp [StuckIn, Plan.nodes, or_and_right, exists_or]

/-- A join that is put further down leaves its inputs with the joins that are in them. -/
theorem Rule.StuckIn.lower (h : rule.StuckIn left ∨ rule.StuckIn right) :
    rule.StuckIn (Plan.lower e kind right condition left) := by
  fun_induction Plan.lower e kind right condition left with
  -- The join goes below operators at the root of the left input, where no rule is stuck.
  | case1 | case4 | case5 => simp_all
  -- The join stays above both inputs.
  | case2 | case3 | case6 | case7 | case8 => exact Rule.stuckIn_join.2 (.inr h)

end StuckIn

theorem Rule.Stuck.settle (h : rule.Stuck p) : rule.Stuck (p.settle e) := by
  -- A condition that cannot be moved once keeps the join above the projection for good.
  have hbelow {input : Plan} {outputs : List Output} {condition : Expr}
      (hforeign : ¬ condition.isKnown) : below? input outputs condition = none :=
    Option.eq_none_iff_forall_not_mem.2 fun _ hc => hforeign (Expr.isKnown_of_mapColumns? hc)
  cases h with
  | project hkind hforeign =>
    simp only [Plan.settle, Plan.lower, hkind, hbelow hforeign, if_true]
    exact .project hkind hforeign
  | filter hkind hforeign =>
    simp only [Plan.settle, Plan.lower, hkind, hbelow hforeign, if_true]
    exact .filter hkind hforeign

theorem Rule.StuckIn.settle (h : rule.StuckIn p) : rule.StuckIn (p.settle e) := by
  induction p with
  | scan => simp at h
  | filter _ _ _ ih | project _ _ _ ih =>
    simp only [Plan.settle, Rule.stuckIn_filter, Rule.stuckIn_project] at h ⊢
    exact ih h
  | foreign _ _ _ ih =>
    obtain ⟨c, hc, hstuck⟩ := Rule.stuckIn_foreign.1 h
    rw [Plan.settle, Plan.settleAll_eq]
    exact Rule.stuckIn_foreign.2 ⟨_, List.mem_map_of_mem hc, ih c hc hstuck⟩
  | join id kind left right condition ihl ihr =>
    rcases Rule.stuckIn_join.1 h with hroot | hinputs
    · exact ⟨_, Plan.self_mem_nodes _, hroot.settle⟩
    · have hsettled : rule.StuckIn (left.settle e) ∨ rule.StuckIn (right.settle e) :=
        hinputs.imp ihl ihr
      rw [Plan.settle]
      split
      · exact .lower hsettled
      · exact Rule.stuckIn_join.2 (.inr hsettled)

theorem Rule.Stuck.of_anonymous (h : rule.Stuck p.anonymous) : rule.Stuck p := by
  cases p with
  | scan | filter | project | foreign => cases h
  | join id kind left right condition =>
    cases left with
    | scan | filter | join | foreign => cases h
    | project pid input outputs =>
      cases input with
      | scan | project | join | foreign =>
        cases h with
        | project hkind hforeign => exact .project hkind hforeign
      | filter =>
        cases h with
        | project hkind hforeign => exact .project hkind hforeign
        | filter hkind hforeign => exact .filter hkind hforeign

theorem Rule.StuckIn.of_anonymous (h : rule.StuckIn p.anonymous) : rule.StuckIn p := by
  induction p with
  | scan => simp [Plan.anonymous] at h
  | filter _ _ _ ih | project _ _ _ ih =>
    simp only [Plan.anonymous, Rule.stuckIn_filter, Rule.stuckIn_project] at h ⊢
    exact ih h
  | foreign _ _ _ ih =>
    rw [Plan.anonymous, Plan.anonymousAll_eq, Rule.stuckIn_foreign] at h
    obtain ⟨_, hmem, hstuck⟩ := h
    obtain ⟨c, hc, rfl⟩ := List.mem_map.1 hmem
    exact Rule.stuckIn_foreign.2 ⟨c, hc, ih c hc hstuck⟩
  | join id kind left right condition ihl ihr =>
    exact Rule.stuckIn_join.2 ((Rule.stuckIn_join.1 h).imp Rule.Stuck.of_anonymous (.imp ihl ihr))

/-- Where no rule matches, none is stuck in what the plan settles to. -/
theorem Rule.not_stuckIn_settle (he : e.In rules) (hq : q.Checked)
    (hidle : ∀ rule ∈ rules, rule.Idle q) (hrule : rule ∈ rules) :
    ¬ rule.StuckIn (q.settle e) := by
  rw [q.settle_of_idle he hq hidle]
  intro hstuck
  obtain ⟨r, hr, hstuckr⟩ := hstuck.of_anonymous
  exact hstuckr.match?_ne_none (hq.of_mem hr) (hidle rule hrule r hr)

theorem Plan.Blocked.stuckIn_settle (he : e.In rules) (hblocked : p.Blocked rules) :
    ∃ rule ∈ rules, rule.StuckIn (p.settle e) := by
  obtain ⟨m, r, hr, rule, hrule, hstuck⟩ := Plan.blocked_iff.1 hblocked
  refine ⟨rule, hrule, ?_⟩
  rw [← hr.settle he]
  exact hstuck.settle

/-- No firings lead from a blocked plan to one where no rule matches. -/
theorem Plan.Blocked.not_idle (hblocked : p.Blocked rules) (h : Rewrites rules next n p q)
    (hq : q.Checked) : ¬ ∀ rule ∈ rules, rule.Idle q := by
  intro hidle
  obtain ⟨e, he⟩ := Enabled.exists_in rules
  obtain ⟨rule, hrule, hstuck⟩ := hblocked.stuckIn_settle he
  rw [← h.settle he] at hstuck
  exact Rule.not_stuckIn_settle he hq hidle hrule hstuck

end Settle

/-! ## Runs -/

open Run

theorem Optimizer.fails_of_blocked {o : Optimizer} {p : Plan} {s : RunState}
    (hrules : o.rules ⊆ shippedRules) (hp : p.Built s.next) (hblocked : p.Blocked o.rules)
    {bound : Int} (hlt : p.potential < bound) (order : MatchOrder) :
    ∃ e, (o.optimizeWith bound order p).Fails s e := by
  rcases o.ensuresUnless_optimizeWith hrules hp bound order with hreturns | ⟨e, hfails, -⟩
  · obtain ⟨q, s', -, counts, hprogress, hends⟩ := hreturns
    exact absurd (hends.idle_of_potential_lt hprogress.rewrites hlt)
      (hblocked.not_idle hprogress.rewrites (hprogress.built hp).checked)
  · exact ⟨e, hfails⟩

/-- A run returns a plan with the schema of the one it was given, and with passes enough one where
no rule matches, or it fails for one of the reasons of `Optimizer.CanFail`. If firings of its rules
can lead to a place where one of them is stuck, then a run with passes enough does fail, in either
order. It fails only then if integers can be written and foreign nodes can be built anew. -/
theorem optimizeWith_failures {p : Plan} {s : RunState} (hp : p.Built s.next) {o : Optimizer}
    (hrules : o.rules ⊆ shippedRules) (bound : Int) (order : MatchOrder) :
    (o.optimizeWith bound order p).EnsuresUnless (o.CanFail bound p) s (fun q s' =>
      q.Built s'.next ∧ q.schema = p.schema ∧
        (p.potential < bound → ∀ rule ∈ o.rules, ∀ n ∈ q.nodes, rule.match? n = none)) ∧
      (p.potential < bound → p.Blocked o.rules →
        ∃ e, (o.optimizeWith bound order p).Fails s e) ∧
      (p.isWritable → Value.isShort bound → p.Rebuilds →
        ∀ e, (o.optimizeWith bound order p).Fails s e →
          e = .rule .foreignExpr ∧ p.Blocked o.rules) := by
  have hrun := o.ensuresUnless_optimizeWith hrules hp bound order
  refine ⟨hrun.imp ?_, fun hlt hblocked => ?_, fun hwritable hbound hrebuilds e hfails => ?_⟩
  · rintro q s' ⟨counts, hprogress, hends⟩
    exact ⟨hprogress.built hp, hprogress.rewrites.schema,
      hends.idle_of_potential_lt hprogress.rewrites⟩
  · exact o.fails_of_blocked hrules hp hblocked hlt order
  · obtain he := hrun.reason_of_fails hfails
    rcases he.kinds hp.checked with ⟨rfl, -⟩ | ⟨-, hlong⟩ | ⟨-, -, hrefuses⟩
    · cases he with
      | rules hblocked => exact ⟨rfl, hblocked⟩
    · exact absurd ⟨hwritable, hbound⟩ hlong
    · exact absurd hrebuilds hrefuses

/-- The flagged orders that have a line. The first rewrite puts the flag into the condition, and the
second one is stuck at it. -/
def flaggedOrders : Plan :=
  .join 4 .semi
    (.project 2
      (.project 1 (.scan 0 "orders" [⟨"id", .integer, false⟩])
        [⟨.col ⟨0, .integer, false, some "id"⟩, "id"⟩])
      [⟨.foreign ⟨0, "flag()", "Flag", .boolean⟩, "flag"⟩])
    (.scan 3 "lines" [⟨"order", .integer, true⟩])
    (some (.col ⟨0, .boolean, true, some "flag"⟩))

theorem flaggedOrders_built : flaggedOrders.Built 5 where
  checked := by
    simp only [flaggedOrders, Plan.Checked, Plan.all_join, Plan.all_project, Plan.all_scan]
    exact ⟨rfl, ⟨rfl, rfl, rfl⟩, rfl⟩
  ids := by simp [flaggedOrders, Plan.IdsBelow, Plan.id]

theorem flaggedOrders_blocked : flaggedOrders.Blocked [projectTranspose] := by
  refine Plan.blocked_iff.2 ⟨1, _, .fires (List.mem_singleton_self _) (.project rfl rfl
    (Nat.zero_le 0) (Nat.zero_le 0)), projectTranspose, List.mem_singleton_self _, ?_⟩
  exact Rule.stuckIn_project.2 (Rule.stuckIn_join.2 (.inl (.project rfl nofun)))

theorem flaggedOrders_fails :
    (({ rules := [projectTranspose] } : Optimizer).optimizeWith 3 .bottomUp flaggedOrders).Fails
      ⟨5, []⟩ (.rule .foreignExpr) := by
  have hrebuilds : flaggedOrders.Rebuilds :=
    Plan.KnownNodes.rebuilds (by simp [flaggedOrders, Plan.KnownNodes])
  obtain ⟨-, hblocked, honly⟩ := optimizeWith_failures (s := ⟨5, []⟩)
    (o := { rules := [projectTranspose] }) flaggedOrders_built (by simp [shippedRules]) 3 .bottomUp
  obtain ⟨e, hfails⟩ := hblocked (by decide) flaggedOrders_blocked
  obtain ⟨rfl, -⟩ := honly (by decide) (by decide +kernel) hrebuilds e hfails
  exact hfails

/-- The orders with an agreed price. The rule for projections is stuck at the root. -/
def agreedOrders : Plan :=
  .join 3 .semi
    (.project 1 (.scan 0 "orders" [⟨"id", .integer, false⟩])
      [⟨.col ⟨0, .integer, false, some "id"⟩, "id"⟩])
    (.scan 2 "prices" [⟨"price", .integer, true⟩])
    (some (.foreign ⟨0, "agreed()", "Agreed", .boolean⟩))

theorem agreedOrders_built : agreedOrders.Built 4 where
  checked := by
    simp only [agreedOrders, Plan.Checked, Plan.all_join, Plan.all_project, Plan.all_scan]
    exact ⟨rfl, ⟨rfl, rfl⟩, rfl⟩
  ids := by simp [agreedOrders, Plan.IdsBelow, Plan.id]

/-- Runs on plans that passed construction do not always return. -/
theorem agreedOrders_fails :
    agreedOrders.Built 4 ∧ ¬ ∃ q s',
      (({ rules := shippedRules } : Optimizer).optimizeWith 10 .bottomUp agreedOrders).run.run
        ⟨4, []⟩ = (.ok q, s') := by
  refine ⟨agreedOrders_built, ?_⟩
  rintro ⟨q, s', hreturns⟩
  have hstuck : projectTranspose.Stuck agreedOrders := .project rfl nofun
  obtain ⟨e, t, hfails⟩ := Optimizer.fails_of_blocked (s := ⟨4, []⟩)
    (o := { rules := shippedRules }) (List.Subset.refl _) agreedOrders_built
    (.here (by simp [shippedRules]) (.stuck hstuck))
    (by decide : (agreedOrders.potential : Int) < 10) .bottomUp
  cases hreturns.symm.trans hfails

end Semijoin
