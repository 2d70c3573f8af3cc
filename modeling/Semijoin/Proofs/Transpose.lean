import Semijoin.Proofs.Built
import Semijoin.Rule.Filter
import Semijoin.Rule.Project

/-!
# The transpositions

What one firing of a rule does to a plan: `Rule.Fires` lists the three shapes of a replacement,
with identities drawn from the supply. On a plan that passed construction, every match of a rule
can be applied and gives such a replacement, and the replacement passes all checks again and keeps
the schema. Everything said about rules later on is derived from `Rule.Fires`.
-/

namespace Semijoin

/-- The rules of this library. -/
def shippedRules : List Rule := [projectTranspose, filterTranspose]

/-- The condition of a join over a projection, moved to the input of the projection. -/
def below? (input : Plan) (outputs : List Output) (condition : Expr) : Option Expr :=
  condition.substitute? (outputs.map Output.expr) ((input.schema.length : Int) - outputs.length)

/-- One firing of a rule at the root of a plan. The new nodes have identities from `next` on. -/
inductive Rule.Fires (next : Nat) : Rule → Plan → Plan → Prop where
  | project {id pid id₁ id₂ : Nat} {kind : JoinKind} {input right : Plan} {outputs : List Output}
      {condition condition' : Expr} (hkind : kind.isFiltering)
      (hbelow : below? input outputs condition = some condition')
      (h₁ : next ≤ id₁) (h₂ : next ≤ id₂) :
      Fires next projectTranspose
        (.join id kind (.project pid input outputs) right (some condition))
        (.project id₂ (.join id₁ kind input right (some condition')) outputs)
  | filter {id fid id₁ id₂ : Nat} {kind : JoinKind} {input right : Plan} {predicate : Expr}
      {condition : Option Expr} (hkind : kind.isFiltering) (h₁ : next ≤ id₁) (h₂ : next ≤ id₂) :
      Fires next filterTranspose
        (.join id kind (.filter fid input predicate) right condition)
        (.filter id₂ (.join id₁ kind input right condition) predicate)
  | filterBelowProject {id pid fid id₁ id₂ id₃ : Nat} {kind : JoinKind} {input right : Plan}
      {outputs : List Output} {predicate condition condition' : Expr} (hkind : kind.isFiltering)
      (hbelow : below? input outputs condition = some condition')
      (h₁ : next ≤ id₁) (h₂ : next ≤ id₂) (h₃ : next ≤ id₃) :
      Fires next filterTranspose
        (.join id kind (.project pid (.filter fid input predicate) outputs) right (some condition))
        (.project id₃ (.filter id₂ (.join id₁ kind input right (some condition')) predicate)
          outputs)

/-- A rule finds its pattern, but cannot move the condition below the projection, because it holds
an expression of a foreign kind. -/
inductive Rule.Stuck : Rule → Plan → Prop where
  | project {id pid : Nat} {kind : JoinKind} {input right : Plan} {outputs : List Output}
      {condition : Expr} (hkind : kind.isFiltering) (hforeign : ¬ condition.isKnown) :
      Stuck projectTranspose
        (.join id kind (.project pid input outputs) right (some condition))
  | filter {id pid fid : Nat} {kind : JoinKind} {input right : Plan} {outputs : List Output}
      {predicate condition : Expr} (hkind : kind.isFiltering) (hforeign : ¬ condition.isKnown) :
      Stuck filterTranspose
        (.join id kind (.project pid (.filter fid input predicate) outputs) right (some condition))

/-! ## Conditions below a projection -/

section Below

variable {outputs : List Output} {offset : Int} {fields : List Field} {c : Column}
  {input : Plan} {condition condition' : Expr}

theorem replacement_of_eq_some {o : Output} (h : atPosition? outputs c.index = some o) :
    Expr.replacement (outputs.map Output.expr) offset c = o.expr := by
  obtain ⟨hi, ho⟩ := atPosition?_eq_some_iff.1 h
  simp [Expr.replacement, hi, ho]

theorem replacement_of_le (h : (outputs.length : Int) ≤ c.index) :
    Expr.replacement (outputs.map Output.expr) offset c = .col (c.shift offset) := by
  have hnone : (outputs.map Output.expr)[c.index.toNat]? = none := by
    rw [List.getElem?_eq_none_iff, List.length_map]
    omega
  simp [Expr.replacement, hnone]

/-- A reference over a projection and more columns reads an output or lies behind the outputs. -/
theorem Column.FitsIn.output_or_le (h : c.FitsIn (outputs.map Output.field ++ fields)) :
    (∃ o, atPosition? outputs c.index = some o ∧ c.type = o.expr.type) ∨
      (outputs.length : Int) ≤ c.index := by
  obtain ⟨field, hat, htype, -⟩ := h
  obtain ⟨hi, hfield⟩ := atPosition?_eq_some_iff.1 hat
  by_cases hlt : c.index.toNat < outputs.length
  · rw [List.getElem?_append_left (by simpa using hlt), List.getElem?_map,
      Option.map_eq_some_iff] at hfield
    obtain ⟨o, ho, rfl⟩ := hfield
    exact .inl ⟨o, atPosition?_eq_some_iff.2 ⟨hi, ho⟩, htype⟩
  · exact .inr (by omega)

theorem mem_of_atPosition? {o : Output} (h : atPosition? outputs c.index = some o) :
    o ∈ outputs :=
  List.mem_of_getElem? (atPosition?_eq_some_iff.1 h).2

theorem exists_below? (hknown : condition.isKnown) :
    ∃ condition', below? input outputs condition = some condition' :=
  Expr.exists_mapColumns? _ hknown

theorem not_isKnown_of_below? (h : below? input outputs condition = none) :
    ¬ condition.isKnown := by
  intro hknown
  obtain ⟨condition', hbelow⟩ : ∃ c, below? input outputs condition = some c :=
    exists_below? hknown
  exact nomatch h.symm.trans hbelow

theorem isKnown_below? (h : below? input outputs condition = some condition')
    (hfits : condition.FitsIn (outputs.map Output.field ++ fields)) (hknown : condition.isKnown)
    (houtputs : ∀ o ∈ outputs, o.expr.isKnown) : condition'.isKnown := by
  rw [Expr.isKnown_congr (Expr.unnamed_mapColumns? h)]
  refine Expr.isKnown_bind (fun c hc => ?_) hknown
  rcases (hfits c hc).output_or_le with ⟨o, ho, -⟩ | hle
  · rw [replacement_of_eq_some ho]
    exact houtputs o (mem_of_atPosition? ho)
  · rw [replacement_of_le hle]
    rfl

theorem isWritable_below? (h : below? input outputs condition = some condition')
    (hcondition : condition.isWritable) (houtputs : ∀ o ∈ outputs, o.expr.isWritable) :
    condition'.isWritable := by
  rw [Expr.isWritable_congr (Expr.unnamed_mapColumns? h)]
  refine Expr.isWritable_bind (fun c _ => ?_) hcondition
  unfold Expr.replacement
  split
  · split
    · next e he =>
      obtain ⟨o, ho, rfl⟩ := List.mem_map.1 (List.mem_of_getElem? he)
      exact houtputs o ho
    · rfl
  · rfl

theorem type_below? (h : below? input outputs condition = some condition')
    (hfits : condition.FitsIn (outputs.map Output.field ++ fields)) :
    condition'.type = condition.type := by
  rw [Expr.type_congr (Expr.unnamed_mapColumns? h)]
  refine Expr.type_bind fun c hc => ?_
  rcases (hfits c hc).output_or_le with ⟨o, ho, htype⟩ | hle
  · rw [replacement_of_eq_some ho, htype]
  · rw [replacement_of_le hle]
    rfl

/-- The moved condition fits the input of the projection followed by the same columns. -/
theorem fitsIn_below? (h : below? input outputs condition = some condition')
    (hfits : condition.FitsIn (outputs.map Output.field ++ fields))
    (houtputs : ∀ o ∈ outputs, o.expr.FitsIn input.schema) :
    condition'.FitsIn (input.schema ++ fields) := by
  rw [Expr.fitsIn_congr (Expr.unnamed_mapColumns? h)]
  intro d hd
  rw [Expr.columns_bind, List.mem_flatMap] at hd
  obtain ⟨c, hc, hd⟩ := hd
  rcases (hfits c hc).output_or_le with ⟨o, ho, -⟩ | hle
  · rw [replacement_of_eq_some ho] at hd
    exact (houtputs o (mem_of_atPosition? ho) d hd).append fields
  · rw [replacement_of_le hle, Expr.columns, List.mem_singleton] at hd
    subst hd
    obtain ⟨field, hat, hfield⟩ := hfits c hc
    refine ⟨field, ?_, hfield⟩
    rw [← hat, Column.shift, ← List.length_map (f := Output.field)]
    exact atPosition?_append_shift (by simpa using hle)

end Below

/-! ## Replacements pass the checks -/

section Checked

variable {input input' left left' right right' : Plan} {kind : JoinKind} {next : Nat}
  {outputs : List Output} {predicate condition condition' : Expr}

/-! A check looks at the schemas of the inputs alone. -/

theorem checkFilter_congr (h : input.schema = input'.schema) :
    checkFilter input predicate = checkFilter input' predicate := by
  simp only [checkFilter, h]

theorem checkProject_congr (h : input.schema = input'.schema) :
    checkProject input outputs = checkProject input' outputs := by
  simp only [checkProject, h]

theorem checkJoin_congr {condition : Option Expr} (hl : left.schema = left'.schema)
    (hr : right.schema = right'.schema) :
    checkJoin kind left right condition = checkJoin kind left' right' condition := by
  simp only [checkJoin, hl, hr]

@[simp] theorem schema_filter (id : Nat) (input : Plan) (predicate : Expr) :
    (Plan.filter id input predicate).schema = input.schema := rfl

@[simp] theorem schema_project (id : Nat) (input : Plan) (outputs : List Output) :
    (Plan.project id input outputs).schema = outputs.map Output.field := rfl

theorem schema_join_of_isFiltering (hkind : kind.isFiltering) (id : Nat) (left right : Plan)
    (condition : Option Expr) : (Plan.join id kind left right condition).schema = left.schema := by
  simp [Plan.schema, hkind]

theorem checked_belowProject {id pid id₁ id₂ : Nat} (hkind : kind.isFiltering)
    (hbelow : below? input outputs condition = some condition')
    (h : (Plan.join id kind (.project pid input outputs) right (some condition)).Checked) :
    (Plan.project id₂ (.join id₁ kind input right (some condition')) outputs).Checked := by
  obtain ⟨htype, hfits⟩ := h.condition
  simp only [Plan.Checked, Plan.all_join, Plan.all_project, Plan.check] at h ⊢
  obtain ⟨-, ⟨hproject, hinput⟩, hright⟩ := h
  have houtputs := (checkProject_eq_ok_iff.1 hproject).2
  have hjoin' : checkJoin kind input right (some condition') = .ok () :=
    (checkJoin_some_eq_ok_iff kind).2
      ⟨(type_below? hbelow hfits).trans htype, fitsIn_below? hbelow hfits houtputs⟩
  refine ⟨?_, hjoin', hinput, hright⟩
  rw [checkProject_congr (schema_join_of_isFiltering hkind _ _ _ _)]
  exact hproject

theorem checked_belowFilter {id fid id₁ id₂ : Nat} {condition : Option Expr}
    (hkind : kind.isFiltering)
    (h : (Plan.join id kind (.filter fid input predicate) right condition).Checked) :
    (Plan.filter id₂ (.join id₁ kind input right condition) predicate).Checked := by
  simp only [Plan.Checked, Plan.all_join, Plan.all_filter, Plan.check] at h ⊢
  obtain ⟨hjoin, ⟨hfilter, hinput⟩, hright⟩ := h
  refine ⟨?_, ?_, hinput, hright⟩
  · rw [checkFilter_congr (schema_join_of_isFiltering hkind _ _ _ _)]
    exact hfilter
  · rw [← hjoin]
    exact checkJoin_congr rfl rfl

/-- A replacement passes all checks. The join that looks through a projection to a filter does in
one firing what it could do in two. -/
theorem Rule.Fires.checked {rule : Rule} {p q : Plan} (h : rule.Fires next p q) (hp : p.Checked) :
    q.Checked := by
  cases h with
  | project hkind hbelow => exact checked_belowProject hkind hbelow hp
  | filter hkind => exact checked_belowFilter hkind hp
  | @filterBelowProject _ pid fid id₁ id₂ id₃ kind input right outputs predicate _ c hkind hbelow =>
    have hproject : (Plan.project id₃ (.join id₁ kind (.filter fid input predicate) right (some c))
        outputs).Checked := checked_belowProject hkind hbelow hp
    obtain ⟨houtputs, hjoin⟩ := Plan.all_project.1 hproject
    refine Plan.all_project.2 ⟨?_, checked_belowFilter hkind hjoin⟩
    rw [← houtputs]
    refine checkProject_congr ?_
    simp [schema_join_of_isFiltering hkind]

theorem Rule.Fires.schema {rule : Rule} {p q : Plan} (h : rule.Fires next p q) :
    q.schema = p.schema := by
  cases h with
  | project hkind | filter hkind | filterBelowProject hkind =>
    simp [schema_join_of_isFiltering hkind]

theorem Rule.Fires.knownExprs {rule : Rule} {p q : Plan} (h : rule.Fires next p q)
    (hp : p.Checked) (hknown : p.KnownExprs) : q.KnownExprs := by
  cases h with
  | project hkind hbelow | filterBelowProject hkind hbelow =>
    have hfits := hp.condition.2
    simp only [Plan.KnownExprs, Plan.all_join, Plan.all_project, Plan.all_filter, Plan.exprs,
      Option.toList_some, List.forall_mem_singleton, List.forall_mem_map] at hknown ⊢
    have := isKnown_below? hbelow hfits hknown.1 hknown.2.1.1
    grind
  | filter =>
    simp only [Plan.KnownExprs, Plan.all_join, Plan.all_filter, Plan.exprs] at hknown ⊢
    grind

theorem Rule.Fires.isWritable {rule : Rule} {p q : Plan} (h : rule.Fires next p q)
    (hp : p.isWritable) : q.isWritable := by
  cases h with
  | project _ hbelow | filterBelowProject _ hbelow =>
    simp only [Plan.isWritable, Option.all_some, Bool.and_eq_true, List.all_eq_true] at hp ⊢
    have := isWritable_below? hbelow hp.2 hp.1.1.2
    grind
  | filter =>
    simp only [Plan.isWritable, Bool.and_eq_true] at hp ⊢
    grind

end Checked

/-! ## Matches -/

theorem ProjectTranspose.match?_eq_some {p : Plan} {m : Match} (h : match? p = some m) :
    ∃ id kind pid input outputs right condition, kind.isFiltering ∧
      p = .join id kind (.project pid input outputs) right condition ∧
      m = { rule := name, join := ⟨id, kind, .project pid input outputs, right, condition⟩
            project := some ⟨pid, input, outputs⟩ } := by
  unfold match? at h
  split at h <;> try contradiction
  split at h <;> try contradiction
  split at h <;> try contradiction
  rename_i hkind
  exact ⟨_, _, _, _, _, _, _, hkind, rfl, (Option.some.inj h).symm⟩

theorem FilterTranspose.match?_eq_some {p : Plan} {m : Match} (h : match? p = some m) :
    ∃ id kind left right condition project filter, kind.isFiltering ∧
      p = .join id kind left right condition ∧ unwrap? left = some (project, filter) ∧
      m = { rule := name, join := ⟨id, kind, left, right, condition⟩, project
            filter := some filter
            nullSensitive := kind = .anti && filter.predicate.mayBeNull } := by
  unfold match? at h
  split at h <;> try contradiction
  split at h <;> try contradiction
  rename_i hkind
  split at h <;> try contradiction
  rename_i hunwrap
  split at h <;> try contradiction
  exact ⟨_, _, _, _, _, _, _, hkind, rfl, hunwrap, (Option.some.inj h).symm⟩

/-- The filter that is unwrapped is the left input or the input of the projection there. -/
theorem FilterTranspose.unwrap?_eq_some {left : Plan} {project : Option ProjectNode}
    {f : FilterNode} (h : unwrap? left = some (project, f)) :
    (project = none ∧ left = f.plan) ∨
      ∃ pid outputs, project = some ⟨pid, f.plan, outputs⟩ ∧
        left = .project pid f.plan outputs := by
  unfold unwrap? at h
  split at h <;> try contradiction
  · obtain ⟨rfl, rfl⟩ := Prod.mk.inj (Option.some.inj h)
    exact .inl ⟨rfl, rfl⟩
  · obtain ⟨rfl, rfl⟩ := Prod.mk.inj (Option.some.inj h)
    exact .inr ⟨_, _, rfl, rfl⟩

/-! ## Applying a match -/

theorem Build.node_of_check {make : Nat → Plan} {next : Nat} (h : (make next).check = .ok ()) :
    node make next = .ok (make next, next + 1) := by
  rw [node, h]
  rfl

theorem Build.forRule_node_of_check {make : Nat → Plan} {next : Nat}
    (h : (make next).check = .ok ()) :
    (node make).forRule next = .ok (make next, next + 1) := by
  rw [forRule, node_of_check h]
  rfl

theorem Build.forRule_filter {input : Plan} {predicate : Expr} {next : Nat}
    (h : (Plan.filter next input predicate).check = .ok ()) :
    (filter input predicate).forRule next = .ok (.filter next input predicate, next + 1) :=
  forRule_node_of_check h

theorem Build.forRule_project {input : Plan} {outputs : List Output} {next : Nat}
    (h : (Plan.project next input outputs).check = .ok ()) :
    (project input outputs).forRule next = .ok (.project next input outputs, next + 1) :=
  forRule_node_of_check h

theorem Build.forRule_join {kind : JoinKind} {left right : Plan} {condition : Option Expr}
    {next : Nat} (h : (Plan.join next kind left right condition).check = .ok ()) :
    (join kind left right condition).forRule next =
      .ok (.join next kind left right condition, next + 1) :=
  forRule_node_of_check h

theorem conditionBelow_eq_ok {p : ProjectNode} {condition condition' : Expr}
    (h : below? p.input p.outputs condition = some condition') :
    p.conditionBelow (some condition) = .ok (some condition') := by
  simp only [below?] at h
  simp only [ProjectNode.conditionBelow, h]

theorem conditionBelow_eq_error {p : ProjectNode} {condition : Expr}
    (h : below? p.input p.outputs condition = none) :
    p.conditionBelow (some condition) = .error .foreignExpr := by
  simp only [below?] at h
  simp only [ProjectNode.conditionBelow, h]

section Apply

variable {next : Nat} {p : Plan} {m : Match}

/-- What applying a match gives: a firing, whose new nodes have the identities from `next` up to
the new state of the supply. -/
def Rule.Applies (rule : Rule) (m : Match) (next : Nat) (p : Plan) : Prop :=
  ∃ q next', rule.apply m next = .ok (q, next') ∧ rule.Fires next p q ∧ next ≤ next' ∧
    (p.IdsBelow next → q.IdsBelow next')

theorem ProjectTranspose.applies (hp : p.Checked) (h : match? p = some m) :
    projectTranspose.Applies m next p ∨
      (projectTranspose.Stuck p ∧ projectTranspose.apply m next = .error .foreignExpr) := by
  obtain ⟨id, kind, pid, input, outputs, right, condition, hkind, rfl, rfl⟩ := match?_eq_some h
  obtain ⟨c, rfl⟩ := exists_condition_of_checkJoin hkind (Plan.all_join.1 hp).1
  cases hbelow : below? input outputs c with
  | none =>
    refine .inr ⟨.project hkind (not_isKnown_of_below? hbelow), ?_⟩
    have hmoved := conditionBelow_eq_error (p := ⟨pid, input, outputs⟩) hbelow
    simp only [projectTranspose, apply, Match.checkRule, if_true, Bind.bind, Except.bind, hmoved]
  | some c' =>
    have hfires : projectTranspose.Fires next
        (.join id kind (.project pid input outputs) right (some c))
        (.project (next + 1) (.join next kind input right (some c')) outputs) :=
      .project hkind hbelow (Nat.le_refl _) (Nat.le_succ _)
    obtain ⟨hproject, hjoin⟩ := Plan.all_project.1 (hfires.checked hp)
    refine .inl ⟨_, next + 2, ?_, hfires, by omega, fun hids => ?_⟩
    · have hmoved := conditionBelow_eq_ok (p := ⟨pid, input, outputs⟩) hbelow
      simp only [projectTranspose, apply, Match.checkRule, if_true, Bind.bind, Except.bind,
        hmoved, Build.forRule_join hjoin.self, Build.forRule_project hproject]
    · have hids := hids.mono (Nat.le_add_right next 2)
      simp only [Plan.IdsBelow, Plan.all_join, Plan.all_project, Plan.id] at hids ⊢
      exact ⟨by omega, by omega, hids.2.1.2, hids.2.2⟩

theorem FilterTranspose.applies (hp : p.Checked) (h : match? p = some m) :
    filterTranspose.Applies m next p ∨
      (filterTranspose.Stuck p ∧ filterTranspose.apply m next = .error .foreignExpr) := by
  obtain ⟨id, kind, left, right, condition, project, ⟨fid, input, predicate⟩, hkind, rfl, hunwrap,
    rfl⟩ := match?_eq_some h
  rcases unwrap?_eq_some hunwrap with ⟨rfl, rfl⟩ | ⟨pid, outputs, rfl, rfl⟩
  · have hfires : filterTranspose.Fires next
        (.join id kind (.filter fid input predicate) right condition)
        (.filter (next + 1) (.join next kind input right condition) predicate) :=
      .filter hkind (Nat.le_refl _) (Nat.le_succ _)
    obtain ⟨hfilter, hjoin⟩ := Plan.all_filter.1 (hfires.checked hp)
    refine .inl ⟨_, next + 2, ?_, hfires, by omega, fun hids => ?_⟩
    · simp only [filterTranspose, apply, Match.checkRule, if_true, Bind.bind, Except.bind,
        Build.forRule_join hjoin.self, Build.forRule_filter hfilter]
    · have hids := hids.mono (Nat.le_add_right next 2)
      simp only [FilterNode.plan, Plan.IdsBelow, Plan.all_join, Plan.all_filter, Plan.id] at hids ⊢
      exact ⟨by omega, by omega, hids.2.1.2, hids.2.2⟩
  · obtain ⟨c, rfl⟩ := exists_condition_of_checkJoin hkind (Plan.all_join.1 hp).1
    cases hbelow : below? input outputs c with
    | none =>
      refine .inr ⟨.filter hkind (not_isKnown_of_below? hbelow), ?_⟩
      have hmoved :=
        conditionBelow_eq_error (p := ⟨pid, .filter fid input predicate, outputs⟩) hbelow
      simp only [filterTranspose, apply, Match.checkRule, if_true, Bind.bind, Except.bind,
        FilterNode.plan, hmoved]
    | some c' =>
      have hfires : filterTranspose.Fires next
          (.join id kind (.project pid (.filter fid input predicate) outputs) right (some c))
          (.project (next + 2)
            (.filter (next + 1) (.join next kind input right (some c')) predicate) outputs) :=
        .filterBelowProject hkind hbelow (Nat.le_refl _) (Nat.le_succ _) (Nat.le_add_right _ _)
      obtain ⟨hproject, hfilter⟩ := Plan.all_project.1 (hfires.checked hp)
      obtain ⟨hfilter, hjoin⟩ := Plan.all_filter.1 hfilter
      refine .inl ⟨_, next + 3, ?_, hfires, by omega, fun hids => ?_⟩
      · have hmoved :=
          conditionBelow_eq_ok (p := ⟨pid, .filter fid input predicate, outputs⟩) hbelow
        simp only [filterTranspose, apply, Match.checkRule, if_true, Bind.bind, Except.bind,
          FilterNode.plan, hmoved, Build.forRule_join hjoin.self, Build.forRule_filter hfilter,
          Build.forRule_project hproject]
      · have hids := hids.mono (Nat.le_add_right next 3)
        simp only [FilterNode.plan, Plan.IdsBelow, Plan.all_join, Plan.all_project,
          Plan.all_filter, Plan.id] at hids ⊢
        exact ⟨by omega, by omega, by omega, hids.2.1.2.2, hids.2.2⟩

/-- On a plan that passed construction a match can be applied, unless the rule is stuck. -/
theorem Rule.applies_or_stuck {rule : Rule} (hrule : rule ∈ shippedRules) (hp : p.Checked)
    (h : rule.match? p = some m) (next : Nat) :
    rule.Applies m next p ∨ (rule.Stuck p ∧ rule.apply m next = .error .foreignExpr) := by
  simp only [shippedRules, List.mem_cons, List.not_mem_nil, or_false] at hrule
  rcases hrule with rfl | rfl
  · exact ProjectTranspose.applies hp h
  · exact FilterTranspose.applies hp h

theorem Rule.Stuck.not_knownExprs {rule : Rule} (h : rule.Stuck p) : ¬ p.KnownExprs := by
  intro hknown
  cases h with
  | project _ hforeign | filter _ hforeign => exact hforeign (hknown.self _ (by simp [Plan.exprs]))

/-- Without expressions of foreign kinds every match can be applied. -/
theorem Rule.applies {rule : Rule} (hrule : rule ∈ shippedRules) (hp : p.Checked)
    (hknown : p.KnownExprs) (h : rule.match? p = some m) (next : Nat) :
    rule.Applies m next p := by
  rcases Rule.applies_or_stuck hrule hp h next with happlies | ⟨hstuck, -⟩
  · exact happlies
  · exact absurd hknown hstuck.not_knownExprs

/-- On a plan that passed construction a rule finds no match, fires or is stuck. -/
theorem Rule.fire_cases {rule : Rule} (hrule : rule ∈ shippedRules) (hp : p.Checked) (next : Nat) :
    (rule.match? p = none ∧ rule.fire p next = .ok (none, next)) ∨
      (∃ q next', rule.fire p next = .ok (some q, next') ∧ rule.Fires next p q ∧ next ≤ next' ∧
        (p.IdsBelow next → q.IdsBelow next')) ∨
      (rule.Stuck p ∧ rule.fire p next = .error .foreignExpr) := by
  cases hmatch : rule.match? p with
  | none => exact .inl ⟨rfl, by simp only [fire, hmatch]⟩
  | some m =>
    rcases Rule.applies_or_stuck hrule hp hmatch next with
      ⟨q, next', happly, hfires⟩ | ⟨hstuck, happly⟩
    · exact .inr (.inl ⟨q, next', by simp only [fire, hmatch, happly, Except.map], hfires⟩)
    · exact .inr (.inr ⟨hstuck, by simp only [fire, hmatch, happly, Except.map]⟩)

end Apply

end Semijoin
