import Semijoin.Proofs.Run

/-!
# Runs reach a fixpoint

The potential of a plan bounds the rewrites of a run. Where a run ends with a pass that fires
nothing, no rule matches, and another run returns the plan as it is.
-/

namespace Semijoin

/-- The numbers of rewrites that the passes have reported between two states. -/
def RunState.reported (s s' : RunState) : List Nat :=
  (s'.log.drop s.log.length).filterMap Logging.Entry.rewrites?

theorem Run.Advances.reported {s s' : RunState} {counts : List Nat} (h : Advances s counts s') :
    s.reported s' = counts := by
  obtain ⟨entries, hlog, -, hcounts⟩ := h.log
  rw [RunState.reported, hlog, List.drop_left, hcounts]

/-- What a pass without a firing at the end of a run means. -/
theorem Run.Ends.idle {rules : List Rule} {left : Nat} {counts : List Nat} {q : Plan}
    (h : Ends rules left counts q) (hlast : counts.getLast? = some 0) :
    ∀ rule ∈ rules, rule.Idle q := by
  rcases h with ⟨-, -, hidle⟩ | ⟨-, hpos⟩
  · exact hidle
  · exact absurd (hpos 0 (List.mem_of_getLast? hlast)) (Nat.lt_irrefl 0)

/-- Passes enough for the rewrites that there are end with one that fires nothing. -/
theorem Run.Ends.getLast?_eq_zero {rules : List Rule} {left : Nat} {counts : List Nat} {q : Plan}
    (h : Ends rules left counts q) (hlt : counts.sum < left) : counts.getLast? = some 0 := by
  rcases h with ⟨hlast, -⟩ | ⟨hlength, hpos⟩
  · exact hlast
  · have := List.length_le_sum_of_one_le counts hpos
    omega

/-- Passes enough for the potential of the plan end where no rule matches. -/
theorem Run.Ends.idle_of_potential_lt {rules : List Rule} {bound : Int} {counts : List Nat}
    {next : Nat} {p q : Plan} (h : Ends rules bound.toNat counts q)
    (hrewrites : Rewrites rules next counts.sum p q) (hlt : p.potential < bound) :
    ∀ rule ∈ rules, rule.Idle q := by
  have hpotential := hrewrites.add_potential_le
  exact h.idle (h.getLast?_eq_zero (by omega))

/-- A run on a plan where no rule matches builds no node. It returns, unless it has to tell that no
pass is allowed and the bound is too long for that. -/
theorem Optimizer.optimizeWith_of_idle {o : Optimizer} {p : Plan} {s : RunState}
    (hrules : o.rules ⊆ shippedRules) (hp : p.Built s.next)
    (hidle : ∀ rule ∈ o.rules, rule.Idle p) (bound : Int) (order : MatchOrder) :
    (o.optimizeWith bound order p).EnsuresUnless
      (fun e => e = .tooLong ∧ ¬ Value.isShort bound ∧ bound ≤ 0) s
      fun q s' => q = p ∧ s'.next = s.next := by
  have hzero {n : Nat} {q : Plan} {next : Nat} (h : Rewrites o.rules next n p q) : n = 0 :=
    h.eq_zero_of_idle hp.checked hidle
  refine ((o.ensuresUnless_optimizeWith hrules hp bound order).mono ?_).imp ?_
  · rintro e (hfails | ⟨hlong, n, q, hq, hle⟩)
    · exact absurd hidle (hfails.not_idle hp.checked)
    · have hn := hzero hq
      exact ⟨rfl, hlong, by omega⟩
  · rintro q s' ⟨counts, hprogress, -⟩
    have hsum := hzero hprogress.rewrites
    exact ⟨hprogress.rewrites.eq_of_zero hsum, hprogress.next_eq hsum⟩

/-- The rewrites of a run that returns are at most the potential of the plan, and with more passes
than that the run ends with one that fires nothing. After such an end, no rule of the optimizer
matches anywhere, and optimizing again returns the plan itself and builds no node; all that could
keep that run from returning is a bound that allows no pass and is too long to be written. -/
theorem optimizeWith_fixpoint {p : Plan} {s : RunState} (hp : p.Built s.next) {o : Optimizer}
    (hrules : o.rules ⊆ shippedRules) (bound : Int) (order : MatchOrder) :
    (o.optimizeWith bound order p).EnsuresUnless (o.CanFail bound p) s fun q s' =>
      Rewrites o.rules s.next (s.reported s').sum p q ∧
      (s.reported s').sum ≤ p.potential ∧
      (p.potential < bound → (s.reported s').getLast? = some 0) ∧
      ((s.reported s').getLast? = some 0 →
        (∀ rule ∈ o.rules, ∀ n ∈ q.nodes, rule.match? n = none) ∧
        (shippedRules ⊆ o.rules → ∀ id kind left right condition,
          .join id kind left right condition ∈ q.nodes → kind.isFiltering → ¬ left.isOperator) ∧
        ∀ (t : RunState) (bound' : Int) (order' : MatchOrder), s'.next ≤ t.next →
          (o.optimizeWith bound' order' q).EnsuresUnless
            (fun e => e = .tooLong ∧ ¬ Value.isShort bound' ∧ bound' ≤ 0) t
            fun r t' => r = q ∧ t'.next = t.next) := by
  refine (o.ensuresUnless_optimizeWith hrules hp bound order).imp ?_
  rintro q s' ⟨counts, hprogress, hends⟩
  have hq : q.Built s'.next := hprogress.built hp
  have hpotential := hprogress.rewrites.add_potential_le
  rw [hprogress.reported]
  refine ⟨hprogress.rewrites, by omega, fun hlt => hends.getLast?_eq_zero (by omega), ?_⟩
  intro hlast
  have hidle : ∀ rule ∈ o.rules, rule.Idle q := hends.idle hlast
  refine ⟨hidle, ?_, ?_⟩
  · intro hall id kind left right condition hmem hkind
    exact not_isOperator_of_match?_eq_none (hq.checked.of_mem hmem) hkind fun rule hrule =>
      hidle rule (hall hrule) _ hmem
  · intro t bound' order' hle
    exact o.optimizeWith_of_idle hrules (hq.mono hle) hidle bound' order'

theorem openOrders_fixpoint :
    (({ rules := shippedRules } : Optimizer).optimizeWith 3 .topDown openOrders).Ensures ⟨5, []⟩
      fun q s' => (RunState.reported ⟨5, []⟩ s').getLast? = some 0 ∧
        ∀ rule ∈ shippedRules, ∀ n ∈ q.nodes, rule.match? n = none := by
  have hrun := optimizeWith_fixpoint (s := ⟨5, []⟩) (o := { rules := shippedRules })
    openOrders_built (List.Subset.refl _) 3 .topDown
  refine (hrun.ensures (openOrders_not_canFail _)).imp ?_
  rintro q s' ⟨-, -, hlast, hidle⟩
  have hzero := hlast (by decide)
  exact ⟨hzero, (hidle hzero).1⟩

end Semijoin
