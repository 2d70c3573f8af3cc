import Semijoin.Proofs.Potential

/-!
# Where no rule matches

Construction leaves no doubt about the patterns: on a plan that passed it, each rule matches
wherever a semi or anti join stands above the operators that the rule is about. So a rule that
fires or is stuck has found a match, and where no rule matches nothing is rewritten.
-/

namespace Semijoin

section Idle

variable {rules : List Rule} {rule : Rule} {next n : Nat} {p q : Plan}

/-- A filter that passed construction is legal to move a join below. -/
theorem FilterTranspose.isLegal_of_checked {id : Nat} {input : Plan} {predicate : Expr}
    (h : (Plan.filter id input predicate).Checked) : isLegal predicate input :=
  h.predicate.2.readsOnly

section Matches

variable {id pid fid : Nat} {kind : JoinKind} {input right : Plan} {outputs : List Output}
  {predicate : Expr} {condition : Option Expr}

theorem ProjectTranspose.match?_ne_none (hkind : kind.isFiltering) :
    projectTranspose.match? (.join id kind (.project pid input outputs) right condition) ≠
      none := by
  simp [projectTranspose, match?, hkind]

theorem FilterTranspose.match?_filter_ne_none (hkind : kind.isFiltering)
    (hp : (Plan.join id kind (.filter fid input predicate) right condition).Checked) :
    filterTranspose.match? (.join id kind (.filter fid input predicate) right condition) ≠
      none := by
  have hlegal := isLegal_of_checked (Plan.all_join.1 hp).2.1
  simp [filterTranspose, match?, unwrap?, hkind, hlegal]

theorem FilterTranspose.match?_project_ne_none (hkind : kind.isFiltering)
    (hp : (Plan.join id kind (.project pid (.filter fid input predicate) outputs) right
      condition).Checked) :
    filterTranspose.match? (.join id kind (.project pid (.filter fid input predicate) outputs) right
      condition) ≠ none := by
  have hlegal := isLegal_of_checked (Plan.all_project.1 (Plan.all_join.1 hp).2.1).2
  simp [filterTranspose, match?, unwrap?, hkind, hlegal]

end Matches

theorem Rule.Fires.match?_ne_none (h : rule.Fires next p q) (hp : p.Checked) :
    rule.match? p ≠ none := by
  cases h with
  | project hkind => exact ProjectTranspose.match?_ne_none hkind
  | filter hkind => exact FilterTranspose.match?_filter_ne_none hkind hp
  | filterBelowProject hkind => exact FilterTranspose.match?_project_ne_none hkind hp

/-- A rule that is stuck has found a match. -/
theorem Rule.Stuck.match?_ne_none (h : rule.Stuck p) (hp : p.Checked) : rule.match? p ≠ none := by
  cases h with
  | project hkind => exact ProjectTranspose.match?_ne_none hkind
  | filter hkind => exact FilterTranspose.match?_project_ne_none hkind hp

/-- Rules that match nowhere do not fire. -/
theorem Rewrites.eq_zero_of_idle (h : Rewrites rules next n p q) (hp : p.Checked)
    (hidle : ∀ rule ∈ rules, rule.Idle p) : n = 0 := by
  induction h with
  | refl => rfl
  | fires hrule h => exact absurd (hidle _ hrule).self (h.match?_ne_none hp)
  | trans h _ ih ih' =>
    obtain rfl := ih hp hidle
    obtain rfl := h.eq_of_zero rfl
    simpa using ih' hp hidle
  | filter _ _ _ ih =>
    exact ih (Plan.all_filter.1 hp).2 fun r hr => (Plan.all_filter.1 (hidle r hr)).2
  | project _ _ _ ih =>
    exact ih (Plan.all_project.1 hp).2 fun r hr => (Plan.all_project.1 (hidle r hr)).2
  | foreign _ _ _ ih =>
    exact ih (hp.child (by simp [Plan.children])) fun r hr =>
      (hidle r hr).child (by simp [Plan.children])
  | join _ _ _ _ ih ih' =>
    obtain ⟨-, hleft, hright⟩ := Plan.all_join.1 hp
    have hm := ih hleft fun r hr => (Plan.all_join.1 (hidle r hr)).2.1
    have hn := ih' hright fun r hr => (Plan.all_join.1 (hidle r hr)).2.2
    omega

/-- Where neither rule matches, no semi or anti join is directly above a filter or a projection. -/
theorem not_isOperator_of_match?_eq_none {id : Nat} {kind : JoinKind} {left right : Plan}
    {condition : Option Expr} (hp : (Plan.join id kind left right condition).Checked)
    (hkind : kind.isFiltering)
    (h : ∀ rule ∈ shippedRules, rule.match? (.join id kind left right condition) = none) :
    ¬ left.isOperator := by
  simp only [shippedRules, List.forall_mem_cons] at h
  obtain ⟨hproject, hfilter, -⟩ := h
  cases left with
  | scan | join | foreign => simp [Plan.isOperator]
  | filter => exact absurd hfilter (FilterTranspose.match?_filter_ne_none hkind hp)
  | project => exact absurd hproject (ProjectTranspose.match?_ne_none hkind)

end Idle

end Semijoin
