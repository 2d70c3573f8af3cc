import Semijoin.Proofs.Fixpoint

/-!
# One fixpoint whatever the strategy

The plan that rewriting comes to can be computed from the inputs on up, with no regard to the order
of firings: `Plan.settle` puts each semi and anti join as far down as the enabled rules allow. A
firing anywhere in a plan does not change what the plan settles to, and a plan in which no rule
matches settles to itself. So any two runs that end without a firing end with the same plan, apart
from the identities of its nodes.
-/

namespace Semijoin

/-- Which of the two rules are in use. -/
structure Enabled where
  project : Bool
  filter : Bool

/-- Whether a list of rules holds the enabled rules. -/
structure Enabled.In (e : Enabled) (rules : List Rule) : Prop where
  project : e.project ↔ projectTranspose ∈ rules
  filter : e.filter ↔ filterTranspose ∈ rules

theorem Enabled.exists_in (rules : List Rule) : ∃ e : Enabled, e.In rules := by
  classical
  exact ⟨⟨decide (projectTranspose ∈ rules), decide (filterTranspose ∈ rules)⟩, by simp, by simp⟩

namespace Plan

mutual

/-- A plan without the identities of its nodes. -/
@[grind =] def anonymous : Plan → Plan
  | scan _ relation fields => scan 0 relation fields
  | filter _ input predicate => filter 0 input.anonymous predicate
  | project _ input outputs => project 0 input.anonymous outputs
  | join _ kind left right condition => join 0 kind left.anonymous right.anonymous condition
  | foreign _ kind children => foreign 0 kind (anonymousAll children)

def anonymousAll : List Plan → List Plan
  | [] => []
  | p :: ps => p.anonymous :: anonymousAll ps

end

@[simp] theorem anonymousAll_eq (ps : List Plan) : anonymousAll ps = ps.map anonymous := by
  induction ps with
  | nil => rfl
  | cons p ps ih => rw [anonymousAll, ih, List.map_cons]

/-- A semi or anti join put as far down into its left input as the enabled rules allow. With the
rule for filters alone, a projection is passed only together with a filter directly below it. -/
@[grind =] def lower (e : Enabled) (kind : JoinKind) (right : Plan) : Option Expr → Plan → Plan
  | condition, filter id input predicate =>
    if e.filter then filter 0 (lower e kind right condition input) predicate
    else join 0 kind (filter id input predicate) right condition
  | some condition, project id input outputs =>
    match below? input outputs condition with
    | none => join 0 kind (project id input outputs) right (some condition)
    | some condition' =>
      if e.project then project 0 (lower e kind right (some condition') input) outputs
      else
        match input with
        | filter fid input predicate =>
          if e.filter then
            project 0 (filter 0 (lower e kind right (some condition') input) predicate) outputs
          else join 0 kind (project id (filter fid input predicate) outputs) right (some condition)
        | _ => join 0 kind (project id input outputs) right (some condition)
  | condition, left => join 0 kind left right condition

mutual

/-- The plan that rewriting with the enabled rules comes to. -/
@[grind =] def settle (e : Enabled) : Plan → Plan
  | scan _ relation fields => scan 0 relation fields
  | filter _ input predicate => filter 0 (input.settle e) predicate
  | project _ input outputs => project 0 (input.settle e) outputs
  | join _ kind left right condition =>
    if kind.isFiltering then lower e kind (right.settle e) condition (left.settle e)
    else join 0 kind (left.settle e) (right.settle e) condition
  | foreign _ kind children => foreign 0 kind (settleAll e children)

def settleAll (e : Enabled) : List Plan → List Plan
  | [] => []
  | p :: ps => p.settle e :: settleAll e ps

end

@[simp] theorem settleAll_eq (e : Enabled) (ps : List Plan) :
    settleAll e ps = ps.map (settle e) := by
  induction ps with
  | nil => rfl
  | cons p ps ih => rw [settleAll, ih, List.map_cons]

section Lower

variable {e : Enabled} {kind : JoinKind} {id pid fid : Nat} {input left right : Plan}
  {outputs : List Output} {predicate c c' : Expr} {condition : Option Expr}

theorem lower_filter (he : e.filter) :
    lower e kind right condition (filter id input predicate) =
      filter 0 (lower e kind right condition input) predicate := by
  cases condition <;> simp [lower, he]

theorem lower_project (he : e.project) (h : below? input outputs c = some c') :
    lower e kind right (some c) (project id input outputs) =
      project 0 (lower e kind right (some c') input) outputs := by
  simp [lower, he, h]

theorem lower_filterBelowProject (he : e.filter) (h : below? input outputs c = some c') :
    lower e kind right (some c) (project pid (filter fid input predicate) outputs) =
      project 0 (filter 0 (lower e kind right (some c') input) predicate) outputs := by
  have h' : below? (filter fid input predicate) outputs c = some c' := h
  by_cases hproject : e.project
  · rw [lower_project hproject h', lower_filter he]
  · simp [lower, he, h', hproject]

-- The rule for filters alone gets past the projection, too, in one firing instead of two.
example : openOrders.settle ⟨false, true⟩ = openOrders.settle ⟨true, true⟩ := rfl

theorem schema_lower (hkind : kind.isFiltering) :
    (lower e kind right condition left).schema = left.schema := by
  fun_induction lower e kind right condition left <;> simp_all [schema]

theorem schema_settle (e : Enabled) (p : Plan) : (p.settle e).schema = p.schema := by
  induction p with
  | scan | project => rfl
  | filter _ _ _ ih => exact ih
  | foreign _ kind _ ih =>
    simp only [settle, settleAll_eq, schema, schemas_eq, List.map_map]
    exact congrArg kind.schema (List.map_congr_left ih)
  | join id kind left right condition ihl ihr =>
    rw [settle]
    split
    · rename_i hkind
      rw [schema_lower hkind, ihl, schema_join_of_isFiltering hkind]
    · simp only [schema, ihl, ihr]

end Lower

end Plan

theorem below?_congr {input input' : Plan} {outputs : List Output} {condition : Expr}
    (h : input.schema = input'.schema) :
    below? input outputs condition = below? input' outputs condition := by
  simp only [below?, h]

theorem Plan.schema_anonymous (p : Plan) : p.anonymous.schema = p.schema := by
  induction p with
  | scan | project => rfl
  | filter _ _ _ ih => exact ih
  | foreign _ kind _ ih =>
    simp only [anonymous, anonymousAll_eq, schema, schemas_eq, List.map_map]
    exact congrArg kind.schema (List.map_congr_left ih)
  | join _ _ _ _ _ ihl ihr => simp only [anonymous, schema, ihl, ihr]

/-! ## Firings keep what a plan settles to -/

section Settle

variable {rules : List Rule} {rule : Rule} {next n : Nat} {p q : Plan} {e : Enabled}

theorem Rule.Fires.settle (he : e.In rules) (hrule : rule ∈ rules) (h : rule.Fires next p q) :
    q.settle e = p.settle e := by
  cases h with
  | project hkind hbelow =>
    rw [← below?_congr (Plan.schema_settle e _)] at hbelow
    simp only [Plan.settle, hkind, if_true]
    rw [Plan.lower_project (he.project.2 hrule) hbelow]
  | filter hkind =>
    simp only [Plan.settle, hkind, if_true]
    rw [Plan.lower_filter (he.filter.2 hrule)]
  | filterBelowProject hkind hbelow =>
    rw [← below?_congr (Plan.schema_settle e _)] at hbelow
    simp only [Plan.settle, hkind, if_true]
    rw [Plan.lower_filterBelowProject (he.filter.2 hrule) hbelow]

theorem Rewrites.settle (he : e.In rules) (h : Rewrites rules next n p q) :
    q.settle e = p.settle e := by
  induction h with
  | refl => rfl
  | fires hrule h => exact h.settle he hrule
  | trans _ _ ih ih' => rw [ih', ih]
  | filter _ _ _ ih | project _ _ _ ih => simp only [Plan.settle, ih]
  | foreign _ _ _ ih =>
    simp only [Plan.settle, Plan.settleAll_eq, List.map_append, List.map_cons, ih]
  | join _ _ _ _ ih ih' => simp only [Plan.settle, ih, ih']

/-! ## Where nothing matches, a plan is settled -/

theorem Plan.lower_of_match?_eq_none {id : Nat} {kind : JoinKind} {left right : Plan}
    {condition : Option Expr} (he : e.In rules)
    (hp : (join id kind left right condition).Checked) (hkind : kind.isFiltering)
    (h : ∀ rule ∈ rules, rule.match? (join id kind left right condition) = none) :
    lower e kind right.anonymous condition left.anonymous =
      join 0 kind left.anonymous right.anonymous condition := by
  cases left with
  | scan | join | foreign => cases condition <;> rfl
  | filter =>
    have hfilter : ¬ e.filter := fun hf =>
      FilterTranspose.match?_filter_ne_none hkind hp (h _ (he.filter.1 hf))
    cases condition <;> simp [anonymous, lower, hfilter]
  | project pid input outputs =>
    have hproject : ¬ e.project := fun hf =>
      ProjectTranspose.match?_ne_none hkind (h _ (he.project.1 hf))
    obtain ⟨c, rfl⟩ := exists_condition_of_checkJoin hkind (all_join.1 hp).1
    cases input with
    | filter =>
      have hfilter : ¬ e.filter := fun hf =>
        FilterTranspose.match?_project_ne_none hkind hp (h _ (he.filter.1 hf))
      simp only [anonymous, lower, hproject, hfilter]
      split <;> rfl
    | scan | project | join | foreign =>
      simp only [anonymous, lower, hproject]
      split <;> rfl

theorem Plan.settle_of_idle (he : e.In rules) (hp : p.Checked)
    (hidle : ∀ rule ∈ rules, rule.Idle p) : p.settle e = p.anonymous := by
  induction p with
  | scan => rfl
  | filter id input predicate ih =>
    have hinput := ih (all_filter.1 hp).2 fun r hr => (all_filter.1 (hidle r hr)).2
    rw [settle, anonymous, hinput]
  | project id input outputs ih =>
    have hinput := ih (all_project.1 hp).2 fun r hr => (all_project.1 (hidle r hr)).2
    rw [settle, anonymous, hinput]
  | foreign id kind children ih =>
    have hchildren := fun c hc => ih c hc (hp.child hc) fun r hr => (hidle r hr).child hc
    rw [settle, anonymous, settleAll_eq, anonymousAll_eq, List.map_congr_left hchildren]
  | join id kind left right condition ihl ihr =>
    obtain ⟨-, hlp, hrp⟩ := all_join.1 hp
    have hleft := ihl hlp fun r hr => (all_join.1 (hidle r hr)).2.1
    have hright := ihr hrp fun r hr => (all_join.1 (hidle r hr)).2.2
    rw [settle, anonymous, hleft, hright]
    split
    · rename_i hkind
      exact lower_of_match?_eq_none he hp hkind fun r hr => (hidle r hr).self
    · rfl

/-! ## Equality up to identities -/

namespace Plan

theorem sameExprs?_self (es : List Expr) : sameExprs? es es = some true := by
  induction es with
  | nil => rfl
  | cons e es ih => simp [sameExprs?, Expr.same?_self, ih]

theorem sameCondition?_self (condition : Option Expr) :
    sameCondition? condition condition = some true := by
  cases condition with
  | none => rfl
  | some e => exact e.same?_self

/-- Plans that differ in identities alone are equal. -/
theorem same?_of_anonymous_eq {p q : Plan} (hp : p.KnownNodes) (h : p.anonymous = q.anonymous) :
    p.same? q = some true := by
  induction p generalizing q with
  | scan =>
    cases q <;> simp_all [anonymous, same?]
  | filter id input predicate ih =>
    cases q <;> simp only [anonymous, reduceCtorEq, filter.injEq, true_and] at h
    obtain ⟨hinput, rfl⟩ := h
    simp [same?, ih (all_filter.1 hp).2 hinput, Expr.same?_self]
  | project id input outputs ih =>
    cases q <;> simp only [anonymous, reduceCtorEq, project.injEq, true_and] at h
    obtain ⟨hinput, rfl⟩ := h
    simp [same?, ih (all_project.1 hp).2 hinput, sameExprs?_self]
  | join id kind left right condition ihl ihr =>
    cases q <;> simp only [anonymous, reduceCtorEq, join.injEq, true_and] at h
    obtain ⟨rfl, hleft, hright, rfl⟩ := h
    obtain ⟨-, hl, hr⟩ := all_join.1 hp
    simp [same?, ihl hl hleft, ihr hr hright, sameCondition?_self]
  | foreign => exact absurd rfl (hp.self _ _ _)

end Plan

end Settle

/-! ## Runs -/

/-- A call of an optimizer, with a bound on passes and an order of its own. -/
structure Call where
  optimizer : Optimizer
  bound : Int
  order : MatchOrder

/-- Successive calls, each on the plan that the one before has returned. -/
def Call.runAll : List Call → Plan → Run Plan
  | [], p => return p
  | call :: calls, p => do
    let p ← call.optimizer.optimizeWith call.bound call.order p
    runAll calls p

/-- All calls go to optimizers with the given rules, in whatever order and however often. -/
def Call.Register (rules : List Rule) (calls : List Call) : Prop :=
  ∀ call ∈ calls, ∀ rule, rule ∈ call.optimizer.rules ↔ rule ∈ rules

open Run

/-- What can make a series of calls fail if all kinds are known: an integer that is too long to be
written. -/
def Call.Unwritten (calls : List Call) (p : Plan) (e : RunError) : Prop :=
  e = .tooLong ∧ ¬ (p.isWritable ∧ ∀ call ∈ calls, Value.isShort call.bound)

theorem Call.unwritten_of_canFail {call : Call} {calls : List Call} {p : Plan} {e : RunError}
    (h : call.optimizer.CanFail call.bound p e) (hp : p.Checked) (hexprs : p.KnownExprs)
    (hnodes : p.KnownNodes) (hcall : call ∈ calls) : Unwritten calls p e := by
  rcases h.kinds hp with ⟨-, hforeign⟩ | ⟨rfl, hlong⟩ | ⟨-, -, hrefuses⟩
  · exact absurd hexprs hforeign
  · exact ⟨rfl, fun ⟨hwritable, hshort⟩ => hlong ⟨hwritable, hshort call hcall⟩⟩
  · exact absurd hnodes.rebuilds hrefuses

/-- If the last pass of all calls has fired nothing, no rule matches in the plan they return. -/
theorem Call.runAll_ensuresUnless {rules : List Rule} (hrules : rules ⊆ shippedRules)
    {calls : List Call} (hcalls : Register rules calls) {p : Plan} {s : RunState}
    (hp : p.Built s.next) (hexprs : p.KnownExprs) (hnodes : p.KnownNodes) :
    (runAll calls p).EnsuresUnless (Unwritten calls p) s fun q s' => ∃ counts,
      Progress rules s counts.sum counts p q s' ∧
        (counts.getLast? = some 0 → ∀ rule ∈ rules, rule.Idle q) := by
  induction calls generalizing p s with
  | nil => exact (ensures_pure ⟨[], .refl hp.ids, by simp⟩).unless
  | cons call calls ih =>
    obtain ⟨hcall, hcalls⟩ := List.forall_mem_cons.1 hcalls
    have hsub : call.optimizer.rules ⊆ rules := fun rule => (hcall rule).1
    refine ((call.optimizer.ensuresUnless_optimizeWith (List.Subset.trans hsub hrules) hp call.bound
      call.order).mono fun e he =>
        unwritten_of_canFail he hp.checked hexprs hnodes List.mem_cons_self).bind ?_
    rintro q t ⟨counts, hq, hends⟩
    have hq : Progress rules s counts.sum counts p q t := hq.mono hsub
    refine ((ih hcalls (hq.built hp) (hq.knownExprs hp hexprs)
      (hq.rewrites.knownNodes hnodes)).mono ?_).imp ?_
    · rintro e ⟨rfl, hlong⟩
      refine ⟨rfl, fun ⟨hwritable, hshort⟩ => hlong ⟨hq.rewrites.isWritable hwritable, ?_⟩⟩
      exact (List.forall_mem_cons.1 hshort).2
    · rintro r s' ⟨counts', hr, hidle⟩
      refine ⟨counts ++ counts', by rw [List.sum_append]; exact hq.trans hr, fun hlast => ?_⟩
      cases counts' with
      | nil =>
        obtain rfl : r = q := hr.rewrites.eq_of_zero rfl
        rw [List.append_nil] at hlast
        exact fun rule hrule => hends.idle hlast rule ((hcall rule).2 hrule)
      | cons n ns =>
        rw [List.getLast?_append_of_ne_nil _ (List.cons_ne_nil n ns)] at hlast
        exact hidle hlast

/-- Two series of calls of optimizers with the same rules, on the same plan. Each returns, unless
there is an integer that is too long to be written. If the last pass of each has fired nothing, then
they return equal plans, column names and all. -/
theorem Call.runAll_confluent {rules : List Rule} (hrules : rules ⊆ shippedRules) {p : Plan}
    (s₁ s₂ : RunState) (hp₁ : p.Built s₁.next) (hp₂ : p.Built s₂.next) (hexprs : p.KnownExprs)
    (hnodes : p.KnownNodes) {calls₁ calls₂ : List Call} (hcalls₁ : Register rules calls₁)
    (hcalls₂ : Register rules calls₂) :
    (runAll calls₁ p).EnsuresUnless (Unwritten calls₁ p) s₁ fun q₁ s₁' =>
      (runAll calls₂ p).EnsuresUnless (Unwritten calls₂ p) s₂ fun q₂ s₂' =>
        (s₁.reported s₁').getLast? = some 0 → (s₂.reported s₂').getLast? = some 0 →
          q₁.same? q₂ = some true ∧ q₁.anonymous = q₂.anonymous := by
  obtain ⟨e, he⟩ := Enabled.exists_in rules
  refine (runAll_ensuresUnless hrules hcalls₁ hp₁ hexprs hnodes).imp ?_
  rintro q₁ s₁' ⟨counts₁, h₁, hidle₁⟩
  refine (runAll_ensuresUnless hrules hcalls₂ hp₂ hexprs hnodes).imp ?_
  rintro q₂ s₂' ⟨counts₂, h₂, hidle₂⟩
  rw [h₁.reported, h₂.reported]
  intro hlast₁ hlast₂
  have hsame : q₁.anonymous = q₂.anonymous := calc
    q₁.anonymous = q₁.settle e := (q₁.settle_of_idle he (h₁.built hp₁).checked (hidle₁ hlast₁)).symm
    _ = p.settle e := h₁.rewrites.settle he
    _ = q₂.settle e := (h₂.rewrites.settle he).symm
    _ = q₂.anonymous := q₂.settle_of_idle he (h₂.built hp₂).checked (hidle₂ hlast₂)
  exact ⟨Plan.same?_of_anonymous_eq (h₁.rewrites.knownNodes hnodes) hsame, hsame⟩

/-- A call with more passes than the potential of the plan ends with one that fires nothing. -/
theorem Call.ensures_runAll_singleton (call : Call) (hrules : call.optimizer.rules ⊆ shippedRules)
    {p : Plan} {s : RunState} (hp : p.Built s.next)
    (hfree : ∀ e, ¬ call.optimizer.CanFail call.bound p e) (hlt : p.potential < call.bound) :
    (runAll [call] p).Ensures s fun _ s' => (s.reported s').getLast? = some 0 := by
  refine ((call.optimizer.ensuresUnless_optimizeWith hrules hp call.bound call.order).ensures
    hfree).bind ?_
  rintro q t ⟨counts, hq, hends⟩
  have hpotential := hq.rewrites.add_potential_le
  refine ensures_pure ?_
  rw [hq.reported]
  exact hends.getLast?_eq_zero (by omega)

theorem Call.openOrders_confluent :
    (runAll [⟨{ rules := shippedRules }, 3, .topDown⟩] openOrders).Ensures ⟨5, []⟩ fun q₁ _ =>
      (runAll [⟨{ rules := shippedRules.reverse }, 3, .bottomUp⟩] openOrders).Ensures ⟨7, []⟩
        fun q₂ _ => q₁.same? q₂ = some true := by
  have hbuilt : openOrders.Built 7 := openOrders_built.mono (by decide)
  have hreverse : shippedRules.reverse ⊆ shippedRules := List.reverse_subset.2 (List.Subset.refl _)
  have h₁ := ensures_runAll_singleton (s := ⟨5, []⟩) ⟨{ rules := shippedRules }, 3, .topDown⟩
    (List.Subset.refl _) openOrders_built (openOrders_not_canFail _) (by decide)
  have h₂ := ensures_runAll_singleton (s := ⟨7, []⟩)
    ⟨{ rules := shippedRules.reverse }, 3, .bottomUp⟩ hreverse hbuilt (openOrders_not_canFail _)
    (by decide)
  have hcalls₁ : Register shippedRules [⟨{ rules := shippedRules }, 3, .topDown⟩] := by
    simp [Register]
  have hcalls₂ : Register shippedRules [⟨{ rules := shippedRules.reverse }, 3, .bottomUp⟩] := by
    simp [Register]
  have h := runAll_confluent (List.Subset.refl _) ⟨5, []⟩ ⟨7, []⟩ openOrders_built hbuilt
    openOrders_knownExprs openOrders_knownNodes hcalls₁ hcalls₂
  refine (h₁.and_unless h).imp ?_
  rintro q₁ s₁ ⟨hlast₁, h⟩
  refine (h₂.and_unless h).imp ?_
  rintro q₂ s₂ ⟨hlast₂, h⟩
  exact (h hlast₁ hlast₂).1

end Semijoin
