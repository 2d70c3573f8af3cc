import Semijoin.Proofs.Fixpoint
import Semijoin.Proofs.Registry

/-!
# Identities and hints through a run

Hints belong to nodes by identity, so what a run does to them is a matter of which nodes it keeps
and which it builds. A node of the result is one of the nodes that were there, or its identity is
new and no registry has a record for it. Scans are kept, and so is the right input of a join in
which no rule matches.
-/

namespace Semijoin

/-- The plan is the right input of a join in another plan. -/
def Plan.IsRightIn (r p : Plan) : Prop :=
  ∃ id kind left condition, .join id kind left r condition ∈ p.nodes

section IsRightIn

variable {id : Nat} {kind : JoinKind} {input left right r : Plan} {condition : Option Expr}

@[simp] theorem Plan.isRightIn_filter {predicate : Expr} :
    r.IsRightIn (filter id input predicate) ↔ r.IsRightIn input := by
  simp [IsRightIn, nodes]

@[simp] theorem Plan.isRightIn_project {outputs : List Output} :
    r.IsRightIn (project id input outputs) ↔ r.IsRightIn input := by
  simp [IsRightIn, nodes]

@[simp] theorem Plan.isRightIn_foreign {foreignKind : ForeignKind} {children : List Plan} :
    r.IsRightIn (foreign id foreignKind children) ↔ ∃ c ∈ children, r.IsRightIn c := by
  simp only [IsRightIn, nodes, nodesAll_eq, List.mem_cons, List.mem_flatMap, reduceCtorEq,
    false_or]
  grind

@[simp] theorem Plan.isRightIn_join :
    r.IsRightIn (join id kind left right condition) ↔
      r = right ∨ r.IsRightIn left ∨ r.IsRightIn right := by
  simp only [IsRightIn, nodes, List.mem_cons, List.mem_append, exists_or, join.injEq]
  simp

end IsRightIn

/-! ## Nodes that rewriting keeps -/

section Rewrites

variable {rules : List Rule} {rule : Rule} {next n : Nat} {p q r m : Plan}

/-- The nodes of a replacement are those below the pattern, apart from new ones. -/
theorem Rule.Fires.mem_or_le (h : rule.Fires next p q) (hm : m ∈ q.nodes) :
    m ∈ p.nodes ∨ next ≤ m.id := by
  cases h with
  | project | filter | filterBelowProject =>
    simp only [Plan.nodes, List.mem_cons, List.mem_append] at hm ⊢
    grind [Plan.id]

theorem Rule.Fires.scan_mem {id : Nat} {relation : Text} {fields : List Field}
    (h : rule.Fires next p q) (hscan : .scan id relation fields ∈ p.nodes) :
    .scan id relation fields ∈ q.nodes := by
  cases h <;> simpa [Plan.nodes] using hscan

theorem Rule.Fires.isRightIn (h : rule.Fires next p q) (hr : r.IsRightIn p) : r.IsRightIn q := by
  cases h <;> simpa using hr

namespace Rewrites

theorem mem_or_le (h : Rewrites rules next n p q) : ∀ m ∈ q.nodes, m ∈ p.nodes ∨ next ≤ m.id := by
  induction h with
  | refl => exact fun _ hm => .inl hm
  | fires _ h => exact fun _ hm => h.mem_or_le hm
  | trans _ _ ih ih' =>
    intro m hm
    rcases ih' m hm with hm | hle
    · exact ih m hm
    · exact .inr hle
  | filter _ hid _ ih | project _ hid _ ih =>
    intro m hm
    rcases List.mem_cons.1 hm with rfl | hm
    · exact .inr hid
    · exact (ih m hm).imp_left (List.mem_cons_of_mem _)
  | foreign _ hid _ ih =>
    intro m hm
    simp only [Plan.nodes, Plan.nodesAll_eq, List.mem_cons, List.flatMap_append,
      List.flatMap_cons, List.mem_append] at hm ⊢
    rcases hm with rfl | hm | hm | hm
    · exact .inr hid
    · exact .inl (.inr (.inl hm))
    · exact (ih m hm).imp_left fun h => .inr (.inr (.inl h))
    · exact .inl (.inr (.inr (.inr hm)))
  | join _ hid _ _ ih ih' =>
    intro m hm
    simp only [Plan.nodes, List.mem_cons, List.mem_append] at hm ⊢
    rcases hm with rfl | hm | hm
    · exact .inr hid
    · exact (ih m hm).imp_left fun h => .inr (.inl h)
    · exact (ih' m hm).imp_left fun h => .inr (.inr h)

theorem scan_mem {id : Nat} {relation : Text} {fields : List Field}
    (h : Rewrites rules next n p q) (hscan : .scan id relation fields ∈ p.nodes) :
    .scan id relation fields ∈ q.nodes := by
  induction h with
  | refl => exact hscan
  | fires _ h => exact h.scan_mem hscan
  | trans _ _ ih ih' => exact ih' (ih hscan)
  | filter _ _ _ ih | project _ _ _ ih =>
    simp only [Plan.nodes, List.mem_cons, reduceCtorEq, false_or] at hscan ⊢
    exact ih hscan
  | foreign _ _ _ ih =>
    simp only [Plan.nodes, Plan.nodesAll_eq, List.mem_cons, reduceCtorEq, false_or,
      List.flatMap_append, List.flatMap_cons, List.mem_append] at hscan ⊢
    exact hscan.imp_right (.imp_left ih)
  | join _ _ _ _ ih ih' =>
    simp only [Plan.nodes, List.mem_cons, List.mem_append, reduceCtorEq, false_or] at hscan ⊢
    exact hscan.imp ih ih'

/-- The right input of a join stays what it is if no rule matches in it, wherever the join goes. -/
theorem isRightIn (h : Rewrites rules next n p q) (hp : p.Checked) (hr : r.IsRightIn p)
    (hidle : ∀ rule ∈ rules, rule.Idle r) : r.IsRightIn q := by
  induction h with
  | refl => exact hr
  | fires _ h => exact h.isRightIn hr
  | trans h _ ih ih' => exact ih' (h.checked hp) (ih hp hr)
  | filter _ _ _ ih | project _ _ _ ih =>
    simp only [Plan.isRightIn_filter, Plan.isRightIn_project] at hr ⊢
    exact ih (hp.child (by simp [Plan.children])) hr
  | foreign _ _ _ ih =>
    have hchild := ih (hp.child (by simp [Plan.children]))
    simp only [Plan.isRightIn_foreign, List.mem_append, List.mem_cons] at hr ⊢
    grind
  | join _ _ _ h' ih ih' =>
    obtain ⟨-, hleft, hright⟩ := Plan.all_join.1 hp
    rw [Plan.isRightIn_join] at hr ⊢
    rcases hr with rfl | hr | hr
    · exact .inl (h'.eq_of_zero (h'.eq_zero_of_idle hright hidle)).symm
    · exact .inr (.inl (ih hleft hr))
    · exact .inr (.inr (ih' hright hr))

end Rewrites

end Rewrites

/-! ## Runs -/

namespace Run

/-- A run in a session that has a registry, too. -/
def beside {α : Type} (x : Run α) : StateT HintRegistry Run α := monadLift x

theorem EnsuresUnless.beside {α : Type} {x : Run α} {s : RunState} {reason : RunError → Prop}
    {P : α → RunState → Prop} (h : x.EnsuresUnless reason s P) (g : HintRegistry) :
    (x.beside.run g).EnsuresUnless reason s fun r s' => P r.1 s' ∧ r.2 = g :=
  h.bind fun _ _ ha => (ensures_pure ⟨ha, rfl⟩).unless

/-- A run fires nothing if no rule matches or no pass is allowed, and only then. -/
theorem Ends.sum_eq_zero_iff {rules : List Rule} {bound : Int} {counts : List Nat} {p q : Plan}
    {s s' : RunState} (hends : Ends rules bound.toNat counts q) (hp : p.Checked)
    (h : Progress rules s counts.sum counts p q s') :
    counts.sum = 0 ↔ bound ≤ 0 ∨ ∀ rule ∈ rules, rule.Idle p := by
  constructor
  · intro hzero
    obtain rfl : q = p := h.rewrites.eq_of_zero hzero
    rcases hends with ⟨-, -, hidle⟩ | ⟨hlength, hpos⟩
    · exact .inr hidle
    · have := List.length_le_sum_of_one_le counts hpos
      exact .inl (by omega)
  · rintro (hbound | hidle)
    · have hlength : counts.length ≤ bound.toNat := by
        rcases hends with ⟨-, hlength, -⟩ | ⟨hlength, -⟩ <;> omega
      obtain rfl := List.length_eq_zero_iff.1 (by omega : counts.length = 0)
      rfl
    · exact h.rewrites.eq_zero_of_idle hp hidle

end Run

/-- What becomes of the nodes of a plan and of their hints. The identities that are new begin at
`next`. -/
structure HintsFollow (rules : List Rule) (bound : Int) (next : Nat) (p : Plan) (g : HintRegistry)
    (q : Plan) (g' : HintRegistry) : Prop where
  /-- The root stays if no rule matches or no pass is allowed, and only then. -/
  root_iff : q.id = p.id ↔ bound ≤ 0 ∨ ∀ rule ∈ rules, ∀ n ∈ p.nodes, rule.match? n = none
  /-- With the root stays the whole plan. -/
  eq_of_root : q.id = p.id → q = p
  /-- A node was there and has the record that it had, or it is new and has none. -/
  old_or_new : ∀ n ∈ q.nodes,
    (n ∈ p.nodes ∧ g.Agree g' n) ∨ (next ≤ n.id ∧ g'.recordOf? n = none)
  scans : ∀ id relation fields, .scan id relation fields ∈ p.nodes →
    .scan id relation fields ∈ q.nodes
  /-- The right input of a join stays if no rule matches in it. -/
  rights : ∀ r : Plan, r.IsRightIn p → (∀ rule ∈ rules, ∀ n ∈ r.nodes, rule.match? n = none) →
    r.IsRightIn q
  /-- Nodes that were there have the records that they had, in the result or not. -/
  records : ∀ n ∈ p.nodes, g.Agree g' n
  /-- Hints that a new node is given later do not show at them. -/
  later : ∀ m ∈ q.nodes, m ∉ p.nodes → ∀ values, ∀ n ∈ p.nodes,
    g.Agree (g'.apply m values).2.registry n

open Run

/-- Hints follow the identity of nodes through a run, unless it fails. -/
theorem optimizeWith_hints {p : Plan} {s : RunState} (hp : p.Built s.next) {g : HintRegistry}
    (hg : g.Made s.next) {o : Optimizer} (hrules : o.rules ⊆ shippedRules) (bound : Int)
    (order : MatchOrder) :
    ((o.optimizeWith bound order p).beside.run g).EnsuresUnless (o.CanFail bound p) s fun r _ =>
      HintsFollow o.rules bound s.next p g r.1 r.2 := by
  refine ((o.ensuresUnless_optimizeWith hrules hp bound order).beside g).imp ?_
  rintro ⟨q, g'⟩ s' ⟨⟨counts, hprogress, hends⟩, rfl⟩
  dsimp only at hprogress hends hg ⊢
  have hzero := hends.sum_eq_zero_iff hp.checked hprogress
  have hroot : q.id = p.id ↔ counts.sum = 0 := by
    refine ⟨fun hid => ?_, fun hsum => by rw [hprogress.rewrites.eq_of_zero hsum]⟩
    by_contra hpos
    -- A rewrite anywhere gives the root an identity that the plan could not have had.
    have hnew : s.next ≤ q.id := hprogress.rewrites.next_le_id (by omega)
    have hold : p.id < s.next := hp.ids.self
    omega
  have hkept := hprogress.rewrites.mem_or_le
  exact {
    root_iff := hroot.trans hzero
    eq_of_root := fun hid => hprogress.rewrites.eq_of_zero (hroot.1 hid)
    old_or_new := fun n hn => (hkept n hn).imp (fun hmem => ⟨hmem, .refl _ _⟩)
      fun hle => ⟨hle, hg.valid.recordOf?_eq_none hle⟩
    scans := fun _ _ _ => hprogress.rewrites.scan_mem
    rights := fun r hr hidle => hprogress.rewrites.isRightIn hp.checked hr hidle
    records := fun n _ => .refl _ n
    later := fun m hm hnew values n hn =>
      hg.valid.agree_apply ((hkept m hm).resolve_left hnew) (hp.ids n hn) values }

/-- A registry with hints for the join of the example and for one of its scans. -/
def openOrdersHints : HintRegistry :=
  let g := ((({} : HintRegistry).apply openOrders [("key_cardinality", .int 3)]).2).registry
  (g.apply (.scan 3 "lines" [⟨"order", .integer, true⟩]) [("key_cardinality", .int 5)]).2.registry

theorem openOrdersHints_made : openOrdersHints.Made 5 :=
  ((HintRegistry.Made.empty 5).apply (by decide) _).apply (by decide) _

theorem openOrders_hints :
    ((({ rules := shippedRules } : Optimizer).optimizeWith 3 .topDown openOrders).beside.run
      openOrdersHints).Ensures ⟨5, []⟩ fun r _ =>
        HintsFollow shippedRules 3 5 openOrders openOrdersHints r.1 r.2 :=
  (optimizeWith_hints (s := ⟨5, []⟩) (o := { rules := shippedRules }) openOrders_built
    openOrdersHints_made (List.Subset.refl _) 3 .topDown).ensures (openOrders_not_canFail _)

end Semijoin
