import Mathlib.Data.List.Forall2
import Semijoin.Proofs.Transpose

/-!
# Sequences of firings

`Rewrites rules next n p q` says that `n` firings of the given rules lead from one plan to another,
wherever in the plan they happen. The nodes above a firing are built anew; all new nodes have
identities from `next` on. A rewrite keeps the schema and everything that construction
establishes; no rewrite at all returns the plan itself.
-/

namespace Semijoin

inductive Rewrites (rules : List Rule) (next : Nat) : Nat → Plan → Plan → Prop where
  | refl (p : Plan) : Rewrites rules next 0 p p
  | fires {rule : Rule} {p q : Plan} (hrule : rule ∈ rules) (h : rule.Fires next p q) :
      Rewrites rules next 1 p q
  | trans {m n : Nat} {p q r : Plan} (h : Rewrites rules next m p q)
      (h' : Rewrites rules next n q r) : Rewrites rules next (m + n) p r
  | filter {n id id' : Nat} {input input' : Plan} {predicate : Expr} (hpos : 0 < n)
      (hid : next ≤ id') (h : Rewrites rules next n input input') :
      Rewrites rules next n (.filter id input predicate) (.filter id' input' predicate)
  | project {n id id' : Nat} {input input' : Plan} {outputs : List Output} (hpos : 0 < n)
      (hid : next ≤ id') (h : Rewrites rules next n input input') :
      Rewrites rules next n (.project id input outputs) (.project id' input' outputs)
  | foreign {n id id' : Nat} {kind : ForeignKind} {c c' : Plan} {before behind : List Plan}
      (hpos : 0 < n) (hid : next ≤ id') (h : Rewrites rules next n c c') :
      Rewrites rules next n (.foreign id kind (before ++ c :: behind))
        (.foreign id' kind (before ++ c' :: behind))
  | join {m n id id' : Nat} {kind : JoinKind} {left left' right right' : Plan}
      {condition : Option Expr} (hpos : 0 < m + n) (hid : next ≤ id')
      (h : Rewrites rules next m left left') (h' : Rewrites rules next n right right') :
      Rewrites rules next (m + n) (.join id kind left right condition)
        (.join id' kind left' right' condition)

/-- Plans that are rewritten one by one. -/
inductive RewritesAll (rules : List Rule) (next : Nat) : Nat → List Plan → List Plan → Prop where
  | nil : RewritesAll rules next 0 [] []
  | cons {m n : Nat} {p q : Plan} {ps qs : List Plan} (h : Rewrites rules next m p q)
      (hs : RewritesAll rules next n ps qs) : RewritesAll rules next (m + n) (p :: ps) (q :: qs)

/-- The rule matches at no node of the plan. -/
def Rule.Idle (rule : Rule) (p : Plan) : Prop := p.All fun n => rule.match? n = none

variable {rules rules' : List Rule} {rule : Rule} {next next' n : Nat} {p q : Plan}

theorem Rule.idle_iff : rule.Idle p ↔ rule.match? p = none ∧ ∀ c ∈ p.children, rule.Idle c :=
  Plan.all_iff

/-- The rule fires at some node of the plan. -/
def Rule.FiresIn (rule : Rule) (next : Nat) (p : Plan) : Prop :=
  ∃ c ∈ p.nodes, ∃ d, rule.Fires next c d

theorem Rule.FiresIn.of_child {c : Plan} (hc : c ∈ p.children) (h : rule.FiresIn next c) :
    rule.FiresIn next p := by
  obtain ⟨d, hd, hfires⟩ := h
  exact ⟨d, Plan.nodes_subset (Plan.mem_nodes_of_mem_children hc) hd, hfires⟩

/-- What holds of all children holds of them after one was exchanged, if it holds of that one. -/
theorem Plan.forall_mem_exchange {P : Plan → Prop} {c c' : Plan} {before behind : List Plan}
    (h : P c → P c') (hall : ∀ d ∈ before ++ c :: behind, P d) :
    ∀ d ∈ before ++ c' :: behind, P d := by
  simp only [List.forall_mem_append, List.forall_mem_cons] at hall ⊢
  exact ⟨hall.1, h hall.2.1, hall.2.2⟩

theorem Rule.Fires.mono (h : rule.Fires next' p q) (hle : next ≤ next') : rule.Fires next p q := by
  cases h with
  | project hkind hbelow h₁ h₂ =>
    exact .project hkind hbelow (Nat.le_trans hle h₁) (Nat.le_trans hle h₂)
  | filter hkind h₁ h₂ => exact .filter hkind (Nat.le_trans hle h₁) (Nat.le_trans hle h₂)
  | filterBelowProject hkind hbelow h₁ h₂ h₃ =>
    exact .filterBelowProject hkind hbelow (Nat.le_trans hle h₁) (Nat.le_trans hle h₂)
      (Nat.le_trans hle h₃)

theorem Rule.Fires.next_le_id (h : rule.Fires next p q) : next ≤ q.id := by
  cases h <;> assumption

/-- A property of nodes that tells scans apart, and foreign nodes by their kinds and the columns of
their children. -/
structure Plan.OfLeaves (P : Plan → Prop) : Prop where
  filter : ∀ id input predicate, P (.filter id input predicate)
  project : ∀ id input outputs, P (.project id input outputs)
  join : ∀ id kind left right condition, P (.join id kind left right condition)
  foreign : ∀ id id' kind children children', children'.map schema = children.map schema →
    P (.foreign id kind children) → P (.foreign id' kind children')

theorem Plan.ofLeaves_knownNodes :
    OfLeaves fun n => ∀ id kind children, n ≠ foreign id kind children := by
  constructor <;> simp

theorem Plan.ofLeaves_rebuilds :
    OfLeaves fun n => ∀ id kind children, n = foreign id kind children →
      kind.rebuild (children.map schema) = .ok () := by
  constructor
  case foreign =>
    rintro id id' kind children children' hschemas h _ _ _ ⟨⟩
    rw [hschemas]
    exact h _ _ _ rfl
  all_goals simp

/-- A foreign node cannot be built anew over children with the columns of those that it has. -/
def Plan.Refuses (fault : ForeignFault) (p : Plan) : Prop :=
  ∃ id kind children, p = foreign id kind children ∧
    kind.rebuild (children.map schema) = .error fault

theorem Rule.Fires.all {P : Plan → Prop} (hP : Plan.OfLeaves P) (h : rule.Fires next p q)
    (hp : p.All P) : q.All P := by
  cases h <;>
    simp only [Plan.all_join, Plan.all_project, Plan.all_filter, hP.join, hP.project, hP.filter,
      true_and] at hp ⊢ <;>
    exact hp

namespace Rewrites

theorem mono (h : Rewrites rules' next' n p q) (hrules : rules' ⊆ rules) (hle : next ≤ next') :
    Rewrites rules next n p q := by
  induction h with
  | refl p => exact .refl p
  | fires hrule h => exact .fires (hrules hrule) (h.mono hle)
  | trans _ _ ih ih' => exact .trans ih ih'
  | filter hpos hid _ ih => exact .filter hpos (Nat.le_trans hle hid) ih
  | project hpos hid _ ih => exact .project hpos (Nat.le_trans hle hid) ih
  | foreign hpos hid _ ih => exact .foreign hpos (Nat.le_trans hle hid) ih
  | join hpos hid _ _ ih ih' => exact .join hpos (Nat.le_trans hle hid) ih ih'

theorem eq_of_zero (h : Rewrites rules next n p q) (hn : n = 0) : q = p := by
  induction h with
  | refl => rfl
  | fires => contradiction
  | trans _ _ ih ih' => exact (ih' (by omega)).trans (ih (by omega))
  | filter hpos | project hpos | foreign hpos | join hpos => omega

/-- Whatever is rewritten has a new root. -/
theorem next_le_id (h : Rewrites rules next n p q) (hn : 0 < n) : next ≤ q.id := by
  induction h with
  | refl => contradiction
  | fires _ h => exact h.next_le_id
  | @trans m n p q r _ h' ih ih' =>
    by_cases hzero : n = 0
    · rw [h'.eq_of_zero hzero]
      exact ih (by omega)
    · exact ih' (by omega)
  | filter _ hid | project _ hid | foreign _ hid | join _ hid => exact hid

theorem schema (h : Rewrites rules next n p q) : q.schema = p.schema := by
  induction h with
  | refl => rfl
  | fires _ h => exact h.schema
  | trans _ _ ih ih' => exact ih'.trans ih
  | filter _ _ _ ih => exact ih
  | project => rfl
  | foreign _ _ _ ih => simp only [Plan.schema, Plan.schemas_eq, List.map_append, List.map_cons, ih]
  | join _ _ _ _ ih ih' => simp only [Plan.schema, ih, ih']

/-- What construction established holds on. -/
theorem checked (h : Rewrites rules next n p q) (hp : p.Checked) : q.Checked := by
  induction h with
  | refl => exact hp
  | fires _ h => exact h.checked hp
  | trans _ _ ih ih' => exact ih' (ih hp)
  | filter _ _ h ih =>
    obtain ⟨hcheck, hinput⟩ := Plan.all_filter.1 hp
    exact Plan.all_filter.2 ⟨(checkFilter_congr h.schema).trans hcheck, ih hinput⟩
  | project _ _ h ih =>
    obtain ⟨hcheck, hinput⟩ := Plan.all_project.1 hp
    exact Plan.all_project.2 ⟨(checkProject_congr h.schema).trans hcheck, ih hinput⟩
  | foreign _ _ _ ih =>
    have hchildren := (Plan.all_foreign.1 hp).2
    exact Plan.all_foreign.2 ⟨rfl, Plan.forall_mem_exchange ih hchildren⟩
  | join _ _ h h' ih ih' =>
    obtain ⟨hcheck, hleft, hright⟩ := Plan.all_join.1 hp
    exact Plan.all_join.2
      ⟨(checkJoin_congr h.schema h'.schema).trans hcheck, ih hleft, ih' hright⟩

theorem knownExprs (h : Rewrites rules next n p q) (hp : p.Checked) (hknown : p.KnownExprs) :
    q.KnownExprs := by
  induction h with
  | refl => exact hknown
  | fires _ h => exact h.knownExprs hp hknown
  | trans h _ ih ih' => exact ih' (h.checked hp) (ih hp hknown)
  | filter _ _ _ ih =>
    exact Plan.all_filter.2 ⟨(Plan.all_filter.1 hknown).1,
      ih (Plan.all_filter.1 hp).2 (Plan.all_filter.1 hknown).2⟩
  | project _ _ _ ih =>
    exact Plan.all_project.2 ⟨(Plan.all_project.1 hknown).1,
      ih (Plan.all_project.1 hp).2 (Plan.all_project.1 hknown).2⟩
  | foreign _ _ _ ih =>
    obtain ⟨hnode, hchildren⟩ := Plan.all_foreign.1 hknown
    exact Plan.all_foreign.2 ⟨hnode,
      Plan.forall_mem_exchange (ih (hp.child (by simp [Plan.children]))) hchildren⟩
  | join _ _ _ _ ih ih' =>
    obtain ⟨-, hleft, hright⟩ := Plan.all_join.1 hp
    obtain ⟨hcondition, hl, hr⟩ := Plan.all_join.1 hknown
    exact Plan.all_join.2 ⟨hcondition, ih hleft hl, ih' hright hr⟩

/-- Integers that can be written stay so. -/
theorem isWritable (h : Rewrites rules next n p q) (hp : p.isWritable) : q.isWritable := by
  induction h with
  | refl => exact hp
  | fires _ h => exact h.isWritable hp
  | trans _ _ ih ih' => exact ih' (ih hp)
  | filter _ _ _ ih | project _ _ _ ih =>
    simp only [Plan.isWritable, Bool.and_eq_true] at hp ⊢
    exact ⟨ih hp.1, hp.2⟩
  | foreign _ _ _ ih =>
    simp only [Plan.isWritable, Plan.areWritable_eq, List.all_eq_true] at hp ⊢
    exact Plan.forall_mem_exchange ih hp
  | join _ _ _ _ ih ih' =>
    simp only [Plan.isWritable, Bool.and_eq_true] at hp ⊢
    exact ⟨⟨ih hp.1.1, ih' hp.1.2⟩, hp.2⟩

/-- Scans stay where they are, and foreign nodes of their kind. -/
theorem all {P : Plan → Prop} (hP : Plan.OfLeaves P) (h : Rewrites rules next n p q)
    (hp : p.All P) : q.All P := by
  induction h with
  | refl => exact hp
  | fires _ h => exact h.all hP hp
  | trans _ _ ih ih' => exact ih' (ih hp)
  | filter _ _ _ ih => exact Plan.all_filter.2 ⟨hP.filter _ _ _, ih (Plan.all_filter.1 hp).2⟩
  | project _ _ _ ih => exact Plan.all_project.2 ⟨hP.project _ _ _, ih (Plan.all_project.1 hp).2⟩
  | foreign _ _ h ih =>
    obtain ⟨hnode, hchildren⟩ := Plan.all_foreign.1 hp
    refine Plan.all_foreign.2 ⟨hP.foreign _ _ _ _ _ ?_ hnode, Plan.forall_mem_exchange ih hchildren⟩
    simp only [List.map_append, List.map_cons, h.schema]
  | join _ _ _ _ ih ih' =>
    obtain ⟨-, hleft, hright⟩ := Plan.all_join.1 hp
    exact Plan.all_join.2 ⟨hP.join _ _ _ _ _, ih hleft, ih' hright⟩

theorem knownNodes (h : Rewrites rules next n p q) (hp : p.KnownNodes) : q.KnownNodes :=
  h.all Plan.ofLeaves_knownNodes hp

theorem rebuilds (h : Rewrites rules next n p q) (hp : p.Rebuilds) : q.Rebuilds :=
  h.all Plan.ofLeaves_rebuilds hp

/-- The first firing happens at a node of the plan. -/
theorem firesIn (h : Rewrites rules next n p q) (hpos : 0 < n) :
    ∃ rule ∈ rules, rule.FiresIn next p := by
  induction h with
  | refl => contradiction
  | @fires rule p q hrule h => exact ⟨rule, hrule, p, p.self_mem_nodes, q, h⟩
  | @trans m n p q r h _ ih ih' =>
    rcases Nat.eq_zero_or_pos m with rfl | hm
    · obtain rfl := h.eq_of_zero rfl
      exact ih' (by omega)
    · exact ih hm
  | filter hpos _ _ ih | project hpos _ _ ih | foreign hpos _ _ ih =>
    obtain ⟨rule, hrule, hfires⟩ := ih hpos
    exact ⟨rule, hrule, hfires.of_child (by simp [Plan.children])⟩
  | @join m n _ _ _ _ _ _ _ _ _ _ _ _ ih ih' =>
    rcases Nat.eq_zero_or_pos m with rfl | hm
    · obtain ⟨rule, hrule, hfires⟩ := ih' (by omega)
      exact ⟨rule, hrule, hfires.of_child (by simp [Plan.children])⟩
    · obtain ⟨rule, hrule, hfires⟩ := ih hm
      exact ⟨rule, hrule, hfires.of_child (by simp [Plan.children])⟩

/-- What is done to a child can be done to the plan. -/
theorem exists_of_child {c c' : Plan} (hc : c ∈ p.children) (h : Rewrites rules next n c c') :
    ∃ p', Rewrites rules next n p p' ∧ c'.nodes ⊆ p'.nodes := by
  by_cases hzero : n = 0
  · obtain rfl := h.eq_of_zero hzero
    exact ⟨p, hzero ▸ .refl p, Plan.nodes_subset (Plan.mem_nodes_of_mem_children hc)⟩
  have hpos : 0 < n := Nat.pos_of_ne_zero hzero
  cases p with
  | scan => simp [Plan.children] at hc
  | filter =>
    obtain rfl := List.mem_singleton.1 hc
    exact ⟨_, .filter hpos (Nat.le_refl _) h, List.subset_cons_self _ _⟩
  | project =>
    obtain rfl := List.mem_singleton.1 hc
    exact ⟨_, .project hpos (Nat.le_refl _) h, List.subset_cons_self _ _⟩
  | foreign =>
    obtain ⟨before, behind, rfl⟩ := List.append_of_mem hc
    refine ⟨_, .foreign hpos (Nat.le_refl _) h, fun x hx => ?_⟩
    simp [Plan.nodes, hx]
  | join id kind left right condition =>
    simp only [Plan.children, List.mem_cons, List.not_mem_nil, or_false] at hc
    rcases hc with rfl | rfl
    · refine ⟨_, .join (n := 0) hpos (Nat.le_refl _) h (.refl right), fun x hx => ?_⟩
      simp [Plan.nodes, hx]
    · have hjoin : Rewrites rules next (0 + n) (.join id kind left c condition)
          (.join next kind left c' condition) :=
        .join (by omega) (Nat.le_refl _) (.refl left) h
      rw [Nat.zero_add] at hjoin
      refine ⟨_, hjoin, fun x hx => ?_⟩
      simp [Plan.nodes, hx]

end Rewrites

/-! ## Rewriting all children -/

namespace RewritesAll

variable {ps qs : List Plan} {id id' : Nat}

theorem eq_of_zero (h : RewritesAll rules next n ps qs) (hn : n = 0) : qs = ps := by
  induction h with
  | nil => rfl
  | cons h _ ih => rw [h.eq_of_zero (by omega), ih (by omega)]

theorem zero_of_nil (h : RewritesAll rules next n [] qs) : n = 0 := by
  cases h
  rfl

theorem exists_next_le_id (h : RewritesAll rules next n ps qs) (hn : 0 < n) :
    ∃ q ∈ qs, next ≤ q.id := by
  induction h with
  | nil => contradiction
  | @cons m n p q ps qs h _ ih =>
    by_cases hzero : m = 0
    · obtain ⟨r, hr, hle⟩ := ih (by omega)
      exact ⟨r, List.mem_cons_of_mem q hr, hle⟩
    · exact ⟨q, List.mem_cons_self, h.next_le_id (Nat.pos_of_ne_zero hzero)⟩

theorem mono (h : RewritesAll rules next' n ps qs) (hle : next ≤ next') :
    RewritesAll rules next n ps qs := by
  induction h with
  | nil => exact .nil
  | cons h _ ih => exact .cons (h.mono (fun _ hr => hr) hle) ih

theorem schemas (h : RewritesAll rules next n ps qs) :
    List.Forall₂ (fun q p => q.schema = p.schema) qs ps := by
  induction h with
  | nil => exact .nil
  | cons h _ ih => exact .cons h.schema ih

/-- A foreign node is built anew for every child that was rewritten, the last time under the
identity that it is to have. -/
theorem foreign {kind : ForeignKind} (h : RewritesAll rules next n ps qs) (hpos : 0 < n)
    (hid : next ≤ id') (before : List Plan) :
    Rewrites rules next n (.foreign id kind (before ++ ps)) (.foreign id' kind (before ++ qs)) := by
  induction h generalizing before id with
  | nil => contradiction
  | @cons m n p q ps qs h hs ih =>
    have hback {r : Plan} : before ++ r :: ps = before ++ [r] ++ ps := by simp
    have hback' {r : Plan} : before ++ r :: qs = before ++ [r] ++ qs := by simp
    rcases Nat.eq_zero_or_pos m with rfl | hm
    · obtain rfl := h.eq_of_zero rfl
      rw [Nat.zero_add, hback, hback']
      exact ih (by omega) _
    rcases Nat.eq_zero_or_pos n with rfl | hn
    · obtain rfl := hs.eq_of_zero rfl
      exact .foreign hm hid h
    · refine .trans (.foreign hm hid h) ?_
      rw [hback, hback']
      exact ih hn _

/-- What is done to the children is done to the plan, which gets a new root. -/
theorem atop (h : RewritesAll rules next n p.children qs) (hpos : 0 < n) (hid : next ≤ id) :
    Rewrites rules next n p (p.atop id qs) := by
  cases p with
  | scan =>
    cases h
    contradiction
  | filter =>
    obtain _ | ⟨hinput, ⟨⟩⟩ := h
    exact .filter hpos hid hinput
  | project =>
    obtain _ | ⟨hinput, ⟨⟩⟩ := h
    exact .project hpos hid hinput
  | join =>
    obtain _ | ⟨hleft, _ | ⟨hright, ⟨⟩⟩⟩ := h
    exact .join hpos hid hleft hright
  | foreign => exact h.foreign hpos hid []

end RewritesAll

end Semijoin
