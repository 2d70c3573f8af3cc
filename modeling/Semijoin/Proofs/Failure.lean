import Semijoin.Optimizer
import Semijoin.Proofs.Idle

/-!
# What can make a run fail

A run of the optimizer fails where a rule is stuck at an expression of a foreign kind, where a
firing cannot be reported since a label holds an integer that is too long to be written, and where a
foreign node above a firing is not built anew. `Rule.FailsAt` is about one node. Firings can lead to
such a node from a plan that has none, so `Plan.CanFail` looks ahead; and a bound on passes that is
too long to be written is one more reason, `Optimizer.CanFail`.
-/

namespace Semijoin

variable {rules : List Rule} {rule : Rule} {next n : Nat} {p q : Plan} {e : RunError}

/-- What can go wrong with a rule at a node, by the error that it makes. -/
inductive Rule.FailsAt (rule : Rule) : Plan → RunError → Prop where
  | stuck {p : Plan} (h : rule.Stuck p) : FailsAt rule p (.rule .foreignExpr)
  | unreported {next : Nat} {p q : Plan} (h : rule.Fires next p q)
      (hlabels : ¬ (p.hasWritableLabel ∧ q.hasWritableLabel)) : FailsAt rule p .tooLong
  | refused {next : Nat} {p : Plan} {fault : ForeignFault} (h : p.Refuses fault)
      (hfires : rule.FiresIn next p) : FailsAt rule p (.child (.foreign fault))

/-- Firings of the rules, wherever they happen, can lead to a node at which one of them makes the
error. -/
def Plan.CanFail (rules : List Rule) (p : Plan) (e : RunError) : Prop :=
  ∃ n q, Rewrites rules 0 n p q ∧ ∃ rule ∈ rules, ∃ r ∈ q.nodes, rule.FailsAt r e

/-- The rule is stuck at some node of the plan. -/
def Rule.StuckIn (rule : Rule) (p : Plan) : Prop := ∃ r ∈ p.nodes, rule.Stuck r

/-- Firings of the rules can lead to a node at which a rule is stuck. -/
def Plan.Blocked (rules : List Rule) (p : Plan) : Prop := p.CanFail rules (.rule .foreignExpr)

theorem Plan.blocked_iff : p.Blocked rules ↔
    ∃ n q, Rewrites rules 0 n p q ∧ ∃ rule ∈ rules, rule.StuckIn q := by
  constructor
  · rintro ⟨n, q, hq, rule, hrule, r, hr, ⟨⟩⟩
    exact ⟨n, q, hq, rule, hrule, r, hr, ‹_›⟩
  · rintro ⟨n, q, hq, rule, hrule, r, hr, hstuck⟩
    exact ⟨n, q, hq, rule, hrule, r, hr, .stuck hstuck⟩

namespace Plan.CanFail

theorem here (hrule : rule ∈ rules) (h : rule.FailsAt p e) : p.CanFail rules e :=
  ⟨0, p, .refl p, rule, hrule, p, p.self_mem_nodes, h⟩

theorem of_rewrites (h : Rewrites rules next n p q) (hq : q.CanFail rules e) :
    p.CanFail rules e := by
  obtain ⟨m, r, hr, hfails⟩ := hq
  exact ⟨n + m, r, (h.mono (fun _ hr => hr) (Nat.zero_le next)).trans hr, hfails⟩

theorem of_child {c : Plan} (hc : c ∈ p.children) (h : c.CanFail rules e) : p.CanFail rules e := by
  obtain ⟨n, c', hc', rule, hrule, r, hr, hfails⟩ := h
  obtain ⟨p', hp', hsubset⟩ := hc'.exists_of_child hc
  exact ⟨n, p', hp', rule, hrule, r, hsubset hr, hfails⟩

/-- Nothing goes wrong where no rule matches. -/
theorem not_idle (h : p.CanFail rules e) (hp : p.Checked) : ¬ ∀ rule ∈ rules, rule.Idle p := by
  intro hidle
  obtain ⟨n, q, hq, rule, hrule, r, hr, hfails⟩ := h
  obtain rfl : q = p := hq.eq_of_zero (hq.eq_zero_of_idle hp hidle)
  have hnode {c : Plan} (hc : c ∈ q.nodes) : rule.match? c = none := hidle rule hrule c hc
  cases hfails with
  | stuck hstuck => exact hstuck.match?_ne_none (hp.of_mem hr) (hnode hr)
  | unreported hfires => exact hfires.match?_ne_none (hp.of_mem hr) (hnode hr)
  | refused _ hfires =>
    obtain ⟨c, hc, d, hfires⟩ := hfires
    have hmem := Plan.nodes_subset hr hc
    exact hfires.match?_ne_none (hp.of_mem hmem) (hnode hmem)

/-- What goes wrong with expressions of known kinds, integers that can be written and foreign nodes
that can be built anew: nothing. -/
theorem kinds (h : p.CanFail rules e) (hp : p.Checked) :
    (e = .rule .foreignExpr ∧ ¬ p.KnownExprs) ∨ (e = .tooLong ∧ ¬ p.isWritable) ∨
      ∃ fault, e = .child (.foreign fault) ∧ ¬ p.Rebuilds := by
  obtain ⟨n, q, hq, rule, -, r, hr, hfails⟩ := h
  cases hfails with
  | stuck hstuck =>
    refine .inl ⟨rfl, fun hknown => ?_⟩
    exact hstuck.not_knownExprs ((hq.knownExprs hp hknown).of_mem hr)
  | @unreported _ _ r' hfires hlabels =>
    refine .inr (.inl ⟨rfl, fun hwritable => hlabels ?_⟩)
    have hr' : r.isWritable :=
      Plan.isWritable_iff.2 ((Plan.isWritable_iff.1 (hq.isWritable hwritable)).of_mem hr)
    exact ⟨Plan.hasWritableLabel_of_isWritable hr',
      Plan.hasWritableLabel_of_isWritable (hfires.isWritable hr')⟩
  | refused hrefuses =>
    refine .inr (.inr ⟨_, rfl, fun hrebuilds => ?_⟩)
    obtain ⟨id, kind, children, rfl, hfault⟩ := hrefuses
    cases hfault.symm.trans (hq.rebuilds hrebuilds _ hr id kind children rfl)

end Plan.CanFail

/-- Firings of the rules in a plan can be as many as a number of passes. -/
def Plan.Lasts (rules : List Rule) (passes : Nat) (p : Plan) : Prop :=
  ∃ n q, Rewrites rules 0 n p q ∧ passes ≤ n

/-- What can make a run with a bound on passes fail: what can go wrong with the rules, and, after
passes that all fire, the message that the bound has been reached, if it is too long to be
written. -/
inductive Optimizer.CanFail (o : Optimizer) (bound : Int) (p : Plan) : RunError → Prop where
  | rules {e : RunError} (h : p.CanFail o.rules e) : CanFail o bound p e
  | bound (hlong : ¬ Value.isShort bound) (h : p.Lasts o.rules bound.toNat) :
      CanFail o bound p .tooLong

theorem Optimizer.CanFail.kinds {o : Optimizer} {bound : Int} (h : o.CanFail bound p e)
    (hp : p.Checked) :
    (e = .rule .foreignExpr ∧ ¬ p.KnownExprs) ∨
      (e = .tooLong ∧ ¬ (p.isWritable ∧ Value.isShort bound)) ∨
      ∃ fault, e = .child (.foreign fault) ∧ ¬ p.Rebuilds := by
  cases h with
  | rules h =>
    rcases h.kinds hp with hforeign | ⟨rfl, hlong⟩ | hrefused
    · exact .inl hforeign
    · exact .inr (.inl ⟨rfl, fun hshort => hlong hshort.1⟩)
    · exact .inr (.inr hrefused)
  | bound hlong => exact .inr (.inl ⟨rfl, fun hshort => hlong hshort.2⟩)

/-- All that can go wrong where all kinds are known is an integer that is too long to be written. -/
theorem Optimizer.CanFail.eq_tooLong {o : Optimizer} {bound : Int} (h : o.CanFail bound p e)
    (hp : p.Checked) (hknown : p.KnownExprs) (hrebuilds : p.Rebuilds) : e = .tooLong := by
  rcases h.kinds hp with ⟨-, hforeign⟩ | ⟨rfl, -⟩ | ⟨-, -, hrefuses⟩
  · exact absurd hknown hforeign
  · rfl
  · exact absurd hrebuilds hrefuses

/-- A run cannot fail with expressions of known kinds, integers that can be written and foreign
nodes that can be built anew. -/
theorem Optimizer.not_canFail {o : Optimizer} {bound : Int} (hp : p.Checked)
    (hknown : p.KnownExprs) (hrebuilds : p.Rebuilds) (hwritable : p.isWritable)
    (hbound : Value.isShort bound) : ¬ o.CanFail bound p e := by
  intro h
  rcases h.kinds hp with ⟨-, hforeign⟩ | ⟨-, hlong⟩ | ⟨-, -, hrefuses⟩
  · exact hforeign hknown
  · exact hlong ⟨hwritable, hbound⟩
  · exact hrefuses hrebuilds

theorem openOrders_not_canFail (o : Optimizer) (e : RunError) : ¬ o.CanFail 3 openOrders e :=
  o.not_canFail openOrders_built.checked openOrders_knownExprs openOrders_knownNodes.rebuilds
    (by decide +kernel) (by decide +kernel)

end Semijoin
