import Semijoin.Proofs.Fixpoint

/-!
# Legality of moving a filter

Whether an expression reads allowed positions only is decided on the set of its positions, while
construction goes through its references one by one; both see the same references. So a filter that
passed construction is legal to move a join below, and on plans that passed construction the filter
rule matches by shape alone: the nodes of a match are those of the pattern.
-/

namespace Semijoin

/-- An expression reads allowed positions only if and only if each of its references does. -/
theorem Expr.readsOnly_iff {e : Expr} {allowed : Positions} :
    e.readsOnly allowed ↔ ∀ c ∈ e.columns, c.index ∈ allowed := by
  simp only [readsOnly, List.all_eq_true, List.contains_iff_mem, mem_positions]
  constructor
  · intro h c hc
    exact h c.index ⟨c, hc, rfl⟩
  · rintro h _ ⟨c, hc, rfl⟩
    exact h c hc

theorem JoinKind.isFiltering_iff {kind : JoinKind} :
    kind.isFiltering ↔ kind = .semi ∨ kind = .anti := by
  cases kind <;> decide

namespace FilterTranspose

/-- A left input has a filter at its root, or a projection there and the filter right below it. -/
def Unwraps (left : Plan) : Option ProjectNode → FilterNode → Prop
  | none, f => left = f.plan
  | some q, f => left = q.plan ∧ q.input = f.plan

variable {left p : Plan} {project : Option ProjectNode} {f : FilterNode} {m : Match}

theorem Unwraps.unwrap?_eq (h : Unwraps left project f) : unwrap? left = some (project, f) := by
  cases project with
  | none =>
    obtain rfl : left = f.plan := h
    rfl
  | some q =>
    obtain ⟨pid, input, outputs⟩ := q
    obtain ⟨rfl, rfl⟩ : left = .project pid input outputs ∧ input = f.plan := h
    rfl

theorem unwrap?_eq_some_iff : unwrap? left = some (project, f) ↔ Unwraps left project f := by
  refine ⟨fun h => ?_, Unwraps.unwrap?_eq⟩
  rcases unwrap?_eq_some h with ⟨rfl, rfl⟩ | ⟨pid, outputs, rfl, rfl⟩
  · exact rfl
  · exact ⟨rfl, rfl⟩

/-- The filter that is unwrapped passed construction where the left input did. -/
theorem Unwraps.checked (h : Unwraps left project f) (hleft : left.Checked) : f.plan.Checked := by
  cases project with
  | none => exact h ▸ hleft
  | some q =>
    obtain ⟨rfl, hinput⟩ := h
    exact hinput ▸ (Plan.all_project.1 hleft).2

/-- A join node of the pattern, with the nodes at the top of its left input. -/
structure Pattern (p : Plan) (j : JoinNode) (project : Option ProjectNode) (f : FilterNode) :
    Prop where
  join : p = j.plan
  kind : j.kind = .semi ∨ j.kind = .anti
  left : Unwraps j.left project f

theorem Pattern.exists_match? {j : JoinNode} (h : Pattern p j project f) (hp : p.Checked) :
    ∃ m, match? p = some m := by
  obtain ⟨rfl, hkind, hleft⟩ := h
  have hlegal : isLegal f.predicate f.input :=
    isLegal_of_checked (hleft.checked (Plan.all_join.1 hp).2.1)
  simp [match?, JoinNode.plan, JoinKind.isFiltering_iff.2 hkind, hleft.unwrap?_eq, hlegal]

theorem pattern_of_match? (h : match? p = some m) :
    ∃ f, m.filter = some f ∧ Pattern p m.join m.project f := by
  obtain ⟨id, kind, left, right, condition, project, f, hkind, rfl, hunwrap, rfl⟩ :=
    match?_eq_some h
  exact ⟨f, rfl, rfl, JoinKind.isFiltering_iff.1 hkind, unwrap?_eq_some_iff.1 hunwrap⟩

/-- Reading allowed positions only is a matter of the single references, for any expression. A
filter that passed construction is legal to move. So on a plan that passed construction the rule
matches if and only if the plan is of the pattern, and the match consists of its very nodes. -/
theorem matches_by_shape :
    (∀ (e : Expr) (allowed : Positions),
      e.readsOnly allowed ↔ ∀ c ∈ e.columns, c.index ∈ allowed) ∧
    (∀ f : FilterNode, f.plan.Checked → isLegal f.predicate f.input) ∧
    ∀ p : Plan, p.Checked →
      ((∃ m, filterTranspose.match? p = some m) ↔ ∃ j project f, Pattern p j project f) ∧
      ∀ m, filterTranspose.match? p = some m →
        ∃ f, m.filter = some f ∧ Pattern p m.join m.project f := by
  refine ⟨fun e allowed => Expr.readsOnly_iff, fun f hf => isLegal_of_checked hf, fun p hp => ?_⟩
  refine ⟨⟨?_, ?_⟩, fun m => pattern_of_match?⟩
  · rintro ⟨m, hmatch⟩
    obtain ⟨f, -, hpattern⟩ := pattern_of_match? hmatch
    exact ⟨m.join, m.project, f, hpattern⟩
  · rintro ⟨j, project, f, hpattern⟩
    exact hpattern.exists_match? hp

-- The join over the open orders is of the pattern; its left input on its own is not.
theorem openOrders_matches :
    openOrders.Checked ∧
    (∃ m f, filterTranspose.match? openOrders = some m ∧ m.filter = some f ∧
      Pattern openOrders m.join m.project f) ∧
    ∀ left ∈ openOrders.children, left.Checked ∧
      ∀ j project f, ¬ Pattern left j project f := by
  obtain ⟨-, -, hshape⟩ := matches_by_shape
  have hchecked := openOrders_built.checked
  obtain ⟨m, hm⟩ := (hshape openOrders hchecked).1.mpr
    ⟨⟨4, .semi, _, _, _⟩, some ⟨2, _, _⟩, ⟨1, _, _⟩, rfl, .inl rfl, rfl, rfl⟩
  obtain ⟨f, hf, hpattern⟩ := (hshape openOrders hchecked).2 m hm
  refine ⟨hchecked, ⟨m, f, hm, hf, hpattern⟩, fun left hleft => ?_⟩
  have hleft' := hchecked.child hleft
  refine ⟨hleft', fun j project f h => ?_⟩
  obtain ⟨m, hm⟩ := (hshape left hleft').1.mpr ⟨j, project, f, h⟩
  simp only [openOrders, Plan.children, List.mem_cons, List.not_mem_nil, or_false] at hleft
  rcases hleft with rfl | rfl <;> simp [filterTranspose, match?] at hm

end FilterTranspose

end Semijoin
