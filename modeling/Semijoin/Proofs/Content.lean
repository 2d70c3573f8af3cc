import Semijoin.Proofs.Fixpoint

/-!
# Runs on plans of the same content

Two plans have the same content if they differ in nothing but the names of columns and the
identities of nodes and literals. A run compares expressions and identities, and the comparisons
decide what it keeps and what it builds anew. Even so, two runs on plans of the same content go in
lock step: each attempt fires in both of them or in neither, and the plans have the same content
after it. So names have no part in what the optimizer does.
-/

namespace Semijoin

/-- A literal without its identity. -/
def Literal.content (l : Literal) : Literal := { l with id := 0 }

/-- An expression without the names of its columns and the identities of its literals. -/
def Expr.content : Expr → Expr
  | col c => col c.unnamed
  | lit l => lit l.content
  | bin op left right => bin op left.content right.content
  | un op operand => un op operand.content
  | foreign x => foreign x

def Output.content (o : Output) : Output := { o with expr := o.expr.content }

namespace Plan

mutual

/-- A plan without identities and without the names of columns in its expressions. -/
def content : Plan → Plan
  | scan _ relation fields => scan 0 relation fields
  | filter _ input predicate => filter 0 input.content predicate.content
  | project _ input outputs => project 0 input.content (outputs.map Output.content)
  | join _ kind left right condition =>
    join 0 kind left.content right.content (condition.map Expr.content)
  | foreign _ kind children => foreign 0 kind (contents children)

def contents : List Plan → List Plan
  | [] => []
  | p :: ps => p.content :: contents ps

end

@[simp] theorem contents_eq (ps : List Plan) : contents ps = ps.map content := by
  induction ps with
  | nil => rfl
  | cons p ps ih => rw [contents, ih, List.map_cons]

end Plan

/-! ## What depends on the content alone -/

namespace Expr

@[simp] theorem type_content (e : Expr) : e.content.type = e.type := by
  induction e with
  | col | lit | foreign => rfl
  | bin op left right ihl => simp [content, type, ihl]
  | un op operand ih => cases op <;> simp [content, type, ih]

@[simp] theorem mayBeNull_content (e : Expr) : e.content.mayBeNull = e.mayBeNull := by
  induction e with
  | col | lit | foreign => rfl
  | bin op left right ihl ihr => simp [content, mayBeNull, ihl, ihr]
  | un op operand ih => simp [content, mayBeNull, ih]

@[simp] theorem isKnown_content (e : Expr) : e.content.isKnown = e.isKnown := by
  induction e with
  | col | lit | foreign => rfl
  | bin op left right ihl ihr => simp [content, isKnown, ihl, ihr]
  | un op operand ih => simp [content, isKnown, ih]

@[simp] theorem isWritable_content (e : Expr) : e.content.isWritable = e.isWritable := by
  induction e with
  | col | lit | foreign => rfl
  | bin op left right ihl ihr => simp [content, isWritable, ihl, ihr]
  | un op operand ih => simp [content, isWritable, ih]

@[simp] theorem content_unnamed (e : Expr) : e.unnamed.content = e.content := by
  induction e with
  | col | lit | foreign => rfl
  | bin op left right ihl ihr => simp [content, ihl, ihr]
  | un op operand ih => simp [content, ih]

theorem content_replacement (replacements : List Expr) (offset : Int) (c : Column) :
    (replacement replacements offset c).content =
      replacement (replacements.map content) offset c.unnamed := by
  simp only [replacement, Column.unnamed, List.getElem?_map]
  split
  · cases replacements[c.index.toNat]? <;> rfl
  · rfl

theorem content_bind_replacement (replacements : List Expr) (offset : Int) (e : Expr) :
    (e.bind (replacement replacements offset)).content =
      e.content.bind (replacement (replacements.map content) offset) := by
  induction e with
  | col c => exact content_replacement replacements offset c
  | lit | foreign => rfl
  | bin op left right ihl ihr => simp only [bind, content, ihl, ihr]
  | un op operand ih => simp only [bind, content, ih]

/-- The content of a substitution is the substitution of contents, whatever operations it keeps. -/
theorem content_substitute? {e e' : Expr} {replacements : List Expr} {offset : Int}
    (h : e.substitute? replacements offset = some e') :
    e'.content = e.content.bind (replacement (replacements.map content) offset) := by
  rw [← content_unnamed e', unnamed_mapColumns? h, content_unnamed, content_bind_replacement]

end Expr

@[simp] theorem Output.field_content (o : Output) : o.content.field = o.field := by
  simp [content, field]

namespace Plan

@[simp] theorem schema_content (p : Plan) : p.content.schema = p.schema := by
  induction p with
  | scan => rfl
  | filter _ _ _ ih => exact ih
  | project => simp [content, schema, Function.comp_def]
  | join _ _ _ _ _ ihl ihr => simp only [content, schema, ihl, ihr]
  | foreign _ kind _ ih =>
    simp only [content, contents_eq, schema, schemas_eq, List.map_map]
    exact congrArg kind.schema (List.map_congr_left ih)

theorem exprs_content (p : Plan) : p.content.exprs = p.exprs.map Expr.content := by
  cases p with
  | scan | filter | foreign => rfl
  | project => simp [content, exprs, Output.content]
  | join _ _ _ _ condition => cases condition <;> rfl

theorem nodes_content (p : Plan) : p.content.nodes = p.nodes.map content := by
  induction p with
  | scan => rfl
  | filter _ _ _ ih | project _ _ _ ih => simp only [content, nodes, ih, List.map_cons]
  | join _ _ _ _ _ ihl ihr => simp only [content, nodes, ihl, ihr, List.map_cons, List.map_append]
  | foreign _ _ children ih =>
    simp only [content, contents_eq, nodes, nodesAll_eq, List.map_cons, List.map_flatMap,
      List.flatMap_map]
    rw [List.flatMap_congr ih]

theorem knownExprs_content (p : Plan) : p.content.KnownExprs ↔ p.KnownExprs := by
  simp [KnownExprs, All, nodes_content, exprs_content]

@[simp] theorem hasWritableLabel_content (p : Plan) :
    p.content.hasWritableLabel = p.hasWritableLabel := by
  cases p with
  | scan | project | foreign => rfl
  | filter => simp [content, hasWritableLabel]
  | join _ _ _ _ condition => cases condition <;> simp [content, hasWritableLabel]

theorem accepts_content (p : Plan) (children : List Plan) :
    p.content.accepts (children.map content) = p.accepts children := by
  cases p with
  | foreign => simp [content, accepts, Function.comp_def]
  | scan | filter | project | join => simp [content, accepts, Plan.children]

section Same

variable {p p' input left right : Plan} {id : Nat}

/-- Plans of the same content have the same schema. -/
theorem schema_eq_of_content (h : p.content = p'.content) : p.schema = p'.schema := by
  rw [← schema_content, h, schema_content]

/-- The content tells the kind of a node, and the contents of its parts. -/
theorem eq_filter_of_content {predicate : Expr}
    (h : (filter id input predicate).content = p.content) :
    ∃ id' input' predicate', p = filter id' input' predicate' ∧ input.content = input'.content ∧
      predicate.content = predicate'.content := by
  cases p with
  | filter id' input' predicate' =>
    obtain ⟨-, hinput, hpredicate⟩ := filter.inj h
    exact ⟨id', input', predicate', rfl, hinput, hpredicate⟩
  | scan | project | join | foreign => exact nomatch h

theorem eq_project_of_content {outputs : List Output}
    (h : (project id input outputs).content = p.content) :
    ∃ id' input' outputs', p = project id' input' outputs' ∧ input.content = input'.content ∧
      outputs.map Output.content = outputs'.map Output.content := by
  cases p with
  | project id' input' outputs' =>
    obtain ⟨-, hinput, houtputs⟩ := project.inj h
    exact ⟨id', input', outputs', rfl, hinput, houtputs⟩
  | scan | filter | join | foreign => exact nomatch h

theorem eq_join_of_content {kind : JoinKind} {condition : Option Expr}
    (h : (join id kind left right condition).content = p.content) :
    ∃ id' left' right' condition', p = join id' kind left' right' condition' ∧
      left.content = left'.content ∧ right.content = right'.content ∧
      condition.map Expr.content = condition'.map Expr.content := by
  cases p with
  | join id' kind' left' right' condition' =>
    obtain ⟨-, rfl, hleft, hright, hcondition⟩ := join.inj h
    exact ⟨id', left', right', condition', rfl, hleft, hright, hcondition⟩
  | scan | filter | project | foreign => exact nomatch h

/-- Plans of the same content have children of the same content. -/
theorem children_content (p : Plan) : p.content.children = p.children.map content := by
  cases p <;> simp [content, children]

theorem content_atop (p : Plan) (id : Nat) (children : List Plan) :
    (p.atop id children).content = p.content.atop 0 (children.map content) := by
  cases p with
  | foreign => simp [content, Plan.atop]
  | scan | filter | project | join =>
    rcases children with _ | ⟨a, _ | ⟨b, _ | ⟨c, more⟩⟩⟩ <;> rfl

end Same

end Plan

/-! ## Firings -/

section Fires

variable {rule : Rule} {next next' : Nat} {p p' q q' : Plan}

/-- What a condition becomes below a projection depends on contents alone. -/
theorem below?_content {input input' : Plan} {outputs outputs' : List Output} {c d c' d' : Expr}
    (hinput : input.content = input'.content)
    (houtputs : outputs.map Output.content = outputs'.map Output.content)
    (hcondition : c.content = d.content) (hc : below? input outputs c = some c')
    (hd : below? input' outputs' d = some d') : c'.content = d'.content := by
  have hexprs (os : List Output) :
      (os.map Output.expr).map Expr.content = (os.map Output.content).map Output.expr := by
    simp [Output.content]
  have hlength : outputs.length = outputs'.length := by
    simpa using congrArg List.length houtputs
  rw [Expr.content_substitute? hc, Expr.content_substitute? hd, hexprs, hexprs, houtputs,
    hcondition, hlength, Plan.schema_eq_of_content hinput]

theorem projectTranspose_ne_filterTranspose : projectTranspose ≠ filterTranspose := fun h =>
  absurd (congrArg Rule.name h) (by decide)

/-- A rule that fires at two plans of the same content makes plans of the same content. -/
theorem Rule.Fires.content (h : rule.Fires next p q) (h' : rule.Fires next' p' q')
    (hsame : p.content = p'.content) : q.content = q'.content := by
  have hne : projectTranspose ≠ filterTranspose := projectTranspose_ne_filterTranspose
  generalize hrule : rule = rule' at h'
  cases h with
  | project _ hbelow =>
    cases h' with
    | project _ hbelow' =>
      simp only [Plan.content, Plan.join.injEq, Plan.project.injEq, Option.map_some,
        Option.some.injEq, true_and] at hsame ⊢
      obtain ⟨rfl, ⟨hinput, houtputs⟩, hright, hcondition⟩ := hsame
      have hmoved := below?_content hinput houtputs hcondition hbelow hbelow'
      exact ⟨⟨rfl, hinput, hright, hmoved⟩, houtputs⟩
    | filter | filterBelowProject => exact absurd hrule hne
  | filter =>
    cases h' with
    | project => exact absurd hrule.symm hne
    | filter =>
      simp only [Plan.content, Plan.join.injEq, Plan.filter.injEq, true_and] at hsame ⊢
      obtain ⟨rfl, ⟨hinput, hpredicate⟩, hright, hcondition⟩ := hsame
      exact ⟨⟨rfl, hinput, hright, hcondition⟩, hpredicate⟩
    | filterBelowProject => simp [Plan.content] at hsame
  | filterBelowProject _ hbelow =>
    cases h' with
    | project => exact absurd hrule.symm hne
    | filter => simp [Plan.content] at hsame
    | filterBelowProject _ hbelow' =>
      simp only [Plan.content, Plan.join.injEq, Plan.project.injEq, Plan.filter.injEq,
        Option.map_some, Option.some.injEq, true_and] at hsame ⊢
      obtain ⟨rfl, ⟨⟨hinput, hpredicate⟩, houtputs⟩, hright, hcondition⟩ := hsame
      have hmoved := below?_content hinput houtputs hcondition hbelow hbelow'
      exact ⟨⟨⟨rfl, hinput, hright, hmoved⟩, hpredicate⟩, houtputs⟩

/-- A rule that fires at a plan matches every plan of the same content. -/
theorem Rule.Fires.match?_ne_none_of_content (h : rule.Fires next p q) (hp' : p'.Checked)
    (hsame : p.content = p'.content) : rule.match? p' ≠ none := by
  cases h with
  | project hkind =>
    obtain ⟨_, _, _, _, rfl, hleft, -⟩ := Plan.eq_join_of_content hsame
    obtain ⟨_, _, _, rfl, -⟩ := Plan.eq_project_of_content hleft
    exact ProjectTranspose.match?_ne_none hkind
  | filter hkind =>
    obtain ⟨_, _, _, _, rfl, hleft, -⟩ := Plan.eq_join_of_content hsame
    obtain ⟨_, _, _, rfl, -⟩ := Plan.eq_filter_of_content hleft
    exact FilterTranspose.match?_filter_ne_none hkind hp'
  | filterBelowProject hkind =>
    obtain ⟨_, _, _, _, rfl, hleft, -⟩ := Plan.eq_join_of_content hsame
    obtain ⟨_, _, _, rfl, hinput, -⟩ := Plan.eq_project_of_content hleft
    obtain ⟨_, _, _, rfl, -⟩ := Plan.eq_filter_of_content hinput
    exact FilterTranspose.match?_project_ne_none hkind hp'

/-- Whether a firing can be reported depends on contents alone. -/
theorem Rule.Fires.labels_iff_of_content (h : rule.Fires next p q) (h' : rule.Fires next' p' q')
    (hsame : p.content = p'.content) :
    p.hasWritableLabel ∧ q.hasWritableLabel ↔ p'.hasWritableLabel ∧ q'.hasWritableLabel := by
  rw [← p.hasWritableLabel_content, ← q.hasWritableLabel_content, hsame, h.content h' hsame,
    p'.hasWritableLabel_content, q'.hasWritableLabel_content]

end Fires

/-! ## Two runs -/

namespace Run

variable {α β γ δ : Type} {s t : RunState}

/-- Two computations return, and their results and the states that they leave satisfy a condition
together, or they fail with the same error. -/
def Both (x : Run α) (y : Run β) (s t : RunState)
    (post : α → RunState → β → RunState → Prop) : Prop :=
  (∃ a s' b t', x.run.run s = (.ok a, s') ∧ y.run.run t = (.ok b, t') ∧ post a s' b t') ∨
    ∃ e, x.Fails s e ∧ y.Fails t e

theorem Ensures.both {x : Run α} {y : Run β} {P : α → RunState → Prop} {Q : β → RunState → Prop}
    (hx : x.Ensures s P) (hy : y.Ensures t Q) :
    Both x y s t fun a s' b t' => P a s' ∧ Q b t' := by
  obtain ⟨a, s', hx, ha⟩ := hx
  obtain ⟨b, t', hy, hb⟩ := hy
  exact .inl ⟨a, s', b, t', hx, hy, ha, hb⟩

theorem Fails.both {x : Run α} {y : Run β} {e : RunError}
    {post : α → RunState → β → RunState → Prop} (hx : x.Fails s e) (hy : y.Fails t e) :
    Both x y s t post :=
  .inr ⟨e, hx, hy⟩

theorem both_pure {a : α} {b : β} {post : α → RunState → β → RunState → Prop}
    (h : post a s b t) : Both (pure a) (pure b) s t post :=
  .inl ⟨a, s, b, t, rfl, rfl, h⟩

theorem Both.imp {x : Run α} {y : Run β} {P Q : α → RunState → β → RunState → Prop}
    (h : Both x y s t P) (hPQ : ∀ a s' b t', P a s' b t' → Q a s' b t') : Both x y s t Q := by
  rcases h with ⟨a, s', b, t', hx, hy, hab⟩ | hfails
  · exact .inl ⟨a, s', b, t', hx, hy, hPQ a s' b t' hab⟩
  · exact .inr hfails

theorem Both.bind {x : Run α} {y : Run β} {f : α → Run γ} {g : β → Run δ}
    {P : α → RunState → β → RunState → Prop} {Q : γ → RunState → δ → RunState → Prop}
    (h : Both x y s t P) (hfg : ∀ a s' b t', P a s' b t' → Both (f a) (g b) s' t' Q) :
    Both (x >>= f) (y >>= g) s t Q := by
  rcases h with ⟨a, s', b, t', hx, hy, hab⟩ | ⟨e, hx, hy⟩
  · have hxf := run_bind_of_ok hx f
    have hyg := run_bind_of_ok hy g
    rcases hfg a s' b t' hab with ⟨c, s'', d, t'', hf, hg, hcd⟩ | ⟨e, ⟨s'', hf⟩, t'', hg⟩
    · exact .inl ⟨c, s'', d, t'', hxf.trans hf, hyg.trans hg, hcd⟩
    · exact .inr ⟨e, ⟨s'', hxf.trans hf⟩, t'', hyg.trans hg⟩
  · exact .inr ⟨e, hx.bind f, hy.bind g⟩

/-- If the first computation cannot fail, both return. -/
theorem Both.ensures {x : Run α} {y : Run β} {P : α → RunState → β → RunState → Prop}
    (h : Both x y s t P) (hx : ∀ e, ¬ x.Fails s e) :
    x.Ensures s fun a s' => y.Ensures t fun b t' => P a s' b t' := by
  rcases h with ⟨a, s', b, t', hxa, hyb, hab⟩ | ⟨e, hfails, -⟩
  · exact ⟨a, s', hxa, b, t', hyb, hab⟩
  · exact absurd hfails (hx e)

/-- Two plans of the same content, each built with the supply of its own run. -/
structure Twins (s t : RunState) (p p' : Plan) : Prop where
  left : p.Built s.next
  right : p'.Built t.next
  known : p.KnownExprs
  content : p.content = p'.content

/-- Two runs that rewrite `p` and `p'` have come equally far: with the same number of firings they
have made plans of the same content. -/
structure Abreast (rules : List Rule) (s t : RunState) (p p' : Plan) (r : Plan × Nat)
    (s' : RunState) (r' : Plan × Nat) (t' : RunState) : Prop where
  left : Progress rules s r.2 [] p r.1 s'
  right : Progress rules t r'.2 [] p' r'.1 t'
  fired : r.2 = r'.2
  content : r.1.content = r'.1.content

/-- Two runs that rewrite plans one by one have come equally far. -/
structure AbreastAll (rules : List Rule) (s t : RunState) (ps ps' : List Plan)
    (r : List Plan × Nat) (s' : RunState) (r' : List Plan × Nat) (t' : RunState) : Prop where
  left : ProgressAll rules s r.2 ps r.1 s'
  right : ProgressAll rules t r'.2 ps' r'.1 t'
  fired : r.2 = r'.2
  content : r.1.map Plan.content = r'.1.map Plan.content

section Walks

variable {rules : List Rule} {rule : Rule} {p p' : Plan}

theorem Twins.knownRight (h : Twins s t p p') : p'.KnownExprs := by
  rw [← Plan.knownExprs_content, ← h.content, Plan.knownExprs_content]
  exact h.known

theorem Twins.mono {s' t' : RunState} (h : Twins s t p p') (hs : s.next ≤ s'.next)
    (ht : t.next ≤ t'.next) : Twins s' t' p p' :=
  ⟨h.left.mono hs, h.right.mono ht, h.known, h.content⟩

/-- The children of plans of the same content are such plans, one by one. -/
theorem Twins.children (h : Twins s t p p') : List.Forall₂ (Twins s t) p.children p'.children := by
  have hcontent : p.children.map Plan.content = p'.children.map Plan.content := by
    rw [← Plan.children_content, h.content, Plan.children_content]
  rw [← List.forall₂_eq_eq_eq, List.forall₂_map_left_iff, List.forall₂_map_right_iff] at hcontent
  refine List.forall₂_iff_get.mpr ⟨hcontent.length_eq, fun i hi hi' => ?_⟩
  exact ⟨h.left.child (List.getElem_mem hi), h.right.child (List.getElem_mem hi'),
    h.known.child (List.getElem_mem hi), hcontent.get hi hi'⟩

/-- What two runs have come to is built with the supplies that they have come to. -/
theorem Abreast.twins {r r' : Plan × Nat} {s' t' : RunState}
    (h : Abreast rules s t p p' r s' r' t') (htwins : Twins s t p p') : Twins s' t' r.1 r'.1 :=
  ⟨h.left.built htwins.left, h.right.built htwins.right,
    h.left.knownExprs htwins.left htwins.known, h.content⟩

theorem Abreast.refl (h : Twins s t p p') : Abreast rules s t p p' (p, 0) s (p', 0) t :=
  ⟨.refl h.left.ids, .refl h.right.ids, rfl, h.content⟩

/-- A rule is tried in both runs: it fires in both of them or leaves both plans as they are, or
neither run can report the firing. -/
theorem tryRule_both (hrule : rule ∈ shippedRules) (hmem : rule ∈ rules) (h : Twins s t p p') :
    Both (tryRule rule p) (tryRule rule p') s t fun r s' r' t' =>
      (r = none ∧ r' = none ∧ s' = s ∧ t' = t) ∨
        ∃ q q', r = some q ∧ r' = some q' ∧
          Abreast rules s t p p' (q, 1) s' (q', 1) t' := by
  have hsub : [rule] ⊆ rules := by simpa using hmem
  cases tries hrule h.left with
  | missed hmatch hleft =>
    cases tries hrule h.right with
    | missed _ hright =>
      refine (hleft.both hright).imp ?_
      rintro _ s' _ t' ⟨⟨rfl, rfl⟩, rfl, rfl⟩
      exact .inl ⟨rfl, rfl, rfl, rfl⟩
    | fired hfires | unreported hfires =>
      exact absurd hmatch (hfires.match?_ne_none_of_content h.left.checked h.content.symm)
    | stuck hstuck => exact absurd h.knownRight hstuck.not_knownExprs
  | fired hfires hlabels hleft =>
    cases tries hrule h.right with
    | missed hmatch =>
      exact absurd hmatch (hfires.match?_ne_none_of_content h.right.checked h.content)
    | fired hfires' _ hright =>
      have hcontent := hfires.content hfires' h.content
      refine (hleft.both hright).imp ?_
      rintro (_ | q) s' (_ | q') t' ⟨⟨hq, hprogress⟩, hq', hprogress'⟩
      · exact nomatch hq
      · exact nomatch hq
      · exact nomatch hq'
      · obtain rfl := Option.some.inj hq
        obtain rfl := Option.some.inj hq'
        exact .inr ⟨q, q', rfl, rfl, hprogress.mono hsub, hprogress'.mono hsub, rfl, hcontent⟩
    | unreported hfires' hlabels' =>
      exact absurd ((hfires.labels_iff_of_content hfires' h.content).mp hlabels) hlabels'
    | stuck hstuck => exact absurd h.knownRight hstuck.not_knownExprs
  | unreported hfires hlabels hleft =>
    cases tries hrule h.right with
    | missed hmatch =>
      exact absurd hmatch (hfires.match?_ne_none_of_content h.right.checked h.content)
    | fired hfires' hlabels' =>
      exact absurd ((hfires.labels_iff_of_content hfires' h.content).mpr hlabels') hlabels
    | unreported _ _ hright => exact hleft.both hright
    | stuck hstuck => exact absurd h.knownRight hstuck.not_knownExprs
  | stuck hstuck => exact absurd h.known hstuck.not_knownExprs

/-- A node is built anew in both runs or in neither, or both are refused in the same way. -/
theorem exchange_both {children children' : List Plan} {n n' : Nat} {u v : RunState}
    (h : Twins s t p p')
    (hchildren : AbreastAll rules s t p.children p'.children (children, n) u (children', n') v) :
    Both (exchange p children) (exchange p' children') u v fun q s' q' t' =>
      Abreast rules s t p p' (q, n) s' (q', n') t' := by
  obtain ⟨hleft, hright, rfl, hcontent⟩ := hchildren
  dsimp only at hleft hright hcontent
  have together (hq : Exchanges rules s u n p children)
      (hq' : Exchanges rules t v n p' children') :
      Both (exchange p children) (exchange p' children') u v fun q s' q' t' =>
        Abreast rules s t p p' (q, n) s' (q', n) t' := by
    refine (Ensures.both hq hq').imp ?_
    rintro q s' q' t' ⟨⟨hq, id, rfl⟩, hq', id', rfl⟩
    refine ⟨hq, hq', rfl, ?_⟩
    simp only [Plan.content_atop, h.content, hcontent]
  rcases Nat.eq_zero_or_pos n with rfl | hpos
  · exact together (exchanges_of_zero h.left hleft) (exchanges_of_zero h.right hright)
  have hsame : p'.accepts children' = p.accepts children := by
    rw [← p'.accepts_content, ← h.content, ← hcontent, p.accepts_content]
  cases haccepts : p.accepts children with
  | ok u =>
    exact together (exchanges_of_ok h.left hleft hpos haccepts)
      (exchanges_of_ok h.right hright hpos (hsame.trans haccepts))
  | error fault =>
    exact (exchange_fails h.left hleft hpos haccepts).both
      (exchange_fails h.right hright hpos (hsame.trans haccepts))

theorem visitAll_both {size size' : Nat} {visit : (c : Plan) → c.size < size → Run (Plan × Nat)}
    {visit' : (c : Plan) → c.size < size' → Run (Plan × Nat)}
    (hvisit : ∀ (c c' : Plan) (hc : c.size < size) (hc' : c'.size < size') (u v : RunState),
      Twins u v c c' → Both (visit c hc) (visit' c' hc') u v (Abreast rules u v c c'))
    {ps ps' : List Plan} (h : List.Forall₂ (Twins s t) ps ps') (hps : ∀ c ∈ ps, c.size < size)
    (hps' : ∀ c ∈ ps', c.size < size') :
    Both (visitAll visit ps hps) (visitAll visit' ps' hps') s t (AbreastAll rules s t ps ps') := by
  induction ps generalizing ps' s t with
  | nil =>
    cases h
    exact both_pure ⟨.nil s, .nil t, rfl, rfl⟩
  | cons c cs ih =>
    obtain _ | ⟨hc, hcs⟩ := h
    refine (hvisit c _ _ _ s t hc).bind ?_
    rintro ⟨d, m⟩ u ⟨d', m'⟩ v hd
    have hcs : List.Forall₂ (Twins u v) cs _ :=
      hcs.imp fun _ _ htwins => htwins.mono hd.left.next_le hd.right.next_le
    refine (ih hcs _ _).bind ?_
    rintro ⟨ds, n⟩ u' ⟨ds', n'⟩ v' hds
    obtain ⟨hleft, hright, rfl, hcontent⟩ := hd
    obtain ⟨hleftAll, hrightAll, rfl, hcontents⟩ := hds
    exact both_pure ⟨.cons hleft hleftAll, .cons hright hrightAll, rfl,
      by simp only [List.map_cons, hcontent, hcontents]⟩

/-- Two runs that visit every child abreast visit a node abreast, apart from the root. -/
theorem visitChildren_both (h : Twins s t p p')
    {visit : (c : Plan) → c.size < p.size → Run (Plan × Nat)}
    {visit' : (c : Plan) → c.size < p'.size → Run (Plan × Nat)}
    (hvisit : ∀ (c c' : Plan) (hc : c.size < p.size) (hc' : c'.size < p'.size) (u v : RunState),
      Twins u v c c' → Both (visit c hc) (visit' c' hc') u v (Abreast rules u v c c')) :
    Both (visitChildren p visit) (visitChildren p' visit') s t (Abreast rules s t p p') := by
  refine (visitAll_both hvisit h.children _ _).bind ?_
  rintro ⟨children, n⟩ u ⟨children', n'⟩ v hchildren
  refine (exchange_both h hchildren).bind ?_
  intro q s' q' t' hq
  exact both_pure hq

theorem Abreast.trans {q q' : Plan} {m m' : Nat} {s' t' u u' : RunState} {r r' : Plan × Nat}
    (h : Abreast rules s t p p' (q, m) s' (q', m') t')
    (h' : Abreast rules s' t' q q' r u r' u') :
    Abreast rules s t p p' (r.1, m + r.2) u (r'.1, m' + r'.2) u' :=
  ⟨h.left.trans h'.left, h.right.trans h'.right, congrArg₂ _ h.fired h'.fired, h'.content⟩

theorem bottomUp_both (hrule : rule ∈ shippedRules) (hmem : rule ∈ rules) (h : Twins s t p p') :
    Both (bottomUp (tryRule rule) p) (bottomUp (tryRule rule) p') s t
      (Abreast rules s t p p') := by
  induction hsize : p.size using Nat.strongRecOn generalizing p p' s t with
  | ind size ih =>
    subst hsize
    unfold bottomUp
    refine (visitChildren_both h fun c c' hc hc' u v hcc' => ih c.size hc hcc' rfl).bind ?_
    rintro ⟨q, m⟩ s' ⟨q', m'⟩ t' hq
    refine (tryRule_both hrule hmem (hq.twins h)).bind ?_
    rintro r u r' u' (⟨rfl, rfl, rfl, rfl⟩ | ⟨r, r', rfl, rfl, hr⟩)
    · exact both_pure hq
    · exact both_pure (hq.trans hr)

theorem topDown_both (hrule : rule ∈ shippedRules) (hmem : rule ∈ rules) (h : Twins s t p p') :
    Both (topDown (tryRule rule) p) (topDown (tryRule rule) p') s t (Abreast rules s t p p') := by
  induction hsize : p.size using Nat.strongRecOn generalizing p p' s t with
  | ind size ih =>
    subst hsize
    unfold topDown
    -- The replacements are as large as the plans, so the hypothesis covers their children, too.
    refine (tryRule_both hrule hmem h).bind ?_
    rintro r s' r' t' (⟨rfl, rfl, rfl, rfl⟩ | ⟨⟨q, hqp⟩, ⟨q', hqp'⟩, rfl, rfl, hq⟩)
    · exact visitChildren_both h fun c c' hc hc' u v hcc' => ih c.size hc hcc' rfl
    · refine (visitChildren_both (hq.twins h) fun c c' hc hc' u v hcc' =>
        ih c.size (hqp ▸ hc) hcc' rfl).bind ?_
      rintro ⟨r, m⟩ u ⟨r', m'⟩ u' hr
      refine both_pure ?_
      rw [Nat.add_comm m, Nat.add_comm m']
      exact hq.trans hr

theorem walk_both {order : MatchOrder} (hrule : rule ∈ shippedRules) (hmem : rule ∈ rules)
    (h : Twins s t p p') :
    Both (walk (tryRule rule) order p) (walk (tryRule rule) order p') s t
      (Abreast rules s t p p') := by
  cases order with
  | bottomUp => exact bottomUp_both hrule hmem h
  | topDown => exact topDown_both hrule hmem h

end Walks

section Passes

variable {rules : List Rule} {order : MatchOrder} {p p' : Plan}

theorem pass_both {later : List Rule} (hlater : later ⊆ rules) (hrules : rules ⊆ shippedRules)
    (h : Twins s t p p') :
    Both (pass order later p) (pass order later p') s t (Abreast rules s t p p') := by
  induction later generalizing p p' s t with
  | nil => exact both_pure (.refl h)
  | cons rule later ih =>
    obtain ⟨hmem, hlater⟩ := List.cons_subset.1 hlater
    refine (walk_both (hrules hmem) hmem h).bind ?_
    rintro ⟨q, m⟩ s' ⟨q', m'⟩ t' hq
    refine (ih hlater (hq.twins h)).bind ?_
    rintro ⟨r, n⟩ u ⟨r', n'⟩ u' hr
    exact both_pure (hq.trans hr)

theorem written_both (text : Option α) :
    Both (written text) (written text) s t fun a s' b t' => a = b ∧ s' = s ∧ t' = t := by
  cases text with
  | none => exact (fails_throw _).both (fails_throw _)
  | some a => exact both_pure ⟨rfl, rfl, rfl⟩

/-- Runs on plans of the same content fire as often in every pass and return plans of the same
content, or fail with the same error. -/
theorem passes_both {context : Logging.Context} {bound : Int} {left done : Nat}
    (hcontext : context.rewrites? = none) (hrules : rules ⊆ shippedRules) (h : Twins s t p p') :
    Both (passes rules order context bound left done p)
      (passes rules order context bound left done p') s t fun q s' q' t' =>
        ∃ counts, Advances s counts s' ∧ Advances t counts t' ∧ q.content = q'.content := by
  induction left generalizing p p' s t done with
  | zero =>
    refine (written_both _).bind ?_
    rintro shown _ _ _ ⟨rfl, rfl, rfl⟩
    refine ((ensures_debug rules h.left.ids).both (ensures_debug rules h.right.ids)).bind ?_
    rintro _ s' _ t' ⟨hs, ht⟩
    refine both_pure ⟨[], ?_, ?_, h.content⟩
    · simpa [hcontext] using hs.toAdvances
    · simpa [hcontext] using ht.toAdvances
  | succ left ih =>
    refine (pass_both (List.Subset.refl _) hrules h).bind ?_
    rintro ⟨q, fired⟩ s' ⟨q', fired'⟩ t' hq
    obtain rfl : fired = fired' := hq.fired
    have hbuilt := hq.twins h
    refine ((ensures_debug rules hbuilt.left.ids).both
      (ensures_debug rules hbuilt.right.ids)).bind ?_
    rintro _ u _ u' ⟨hu, hu'⟩
    have hreported : Advances s [fired] u := by
      simpa [Logging.Context.rewrites?_merge] using hq.left.toAdvances.trans hu.toAdvances
    have hreported' : Advances t [fired] u' := by
      simpa [Logging.Context.rewrites?_merge] using hq.right.toAdvances.trans hu'.toAdvances
    split
    · exact both_pure ⟨[fired], hreported, hreported', hq.content⟩
    · refine (ih (hbuilt.mono hu.next_le hu'.next_le)).imp ?_
      rintro r v r' v' ⟨counts, hr, hr', hcontent⟩
      exact ⟨fired :: counts, hreported.trans hr, hreported'.trans hr', hcontent⟩

end Passes

end Run

open Run

/-- Names have no part in what the optimizer does. Of two plans that differ in nothing but the names
of columns and the identities of nodes and literals, it makes plans that differ in nothing else, and
it fires as often in each pass, or it fails with the same error. -/
theorem optimizeWith_content {p p' : Plan} {s t : RunState} (hp : p.Built s.next)
    (hp' : p'.Built t.next) (hknown : p.KnownExprs) (hsame : p.content = p'.content) {o : Optimizer}
    (hrules : o.rules ⊆ shippedRules) (bound : Int) (order : MatchOrder) :
    Both (o.optimizeWith bound order p) (o.optimizeWith bound order p') s t fun q s' q' t' =>
      q.content = q'.content ∧ s.reported s' = t.reported t' := by
  have htwins : Twins s t p p' := ⟨hp, hp', hknown, hsame⟩
  refine Both.imp (passes_both rfl hrules htwins) ?_
  rintro q s' q' t' ⟨counts, hs, ht, hcontent⟩
  exact ⟨hcontent, hs.reported.trans ht.reported.symm⟩

/-- The open orders that have a line, built apart and with other names for the columns that are
read: a wrong one for the status, and none for the identifier. -/
def misreadOrders : Plan :=
  .join 9 .semi
    (.project 7
      (.filter 6 (.scan 5 "orders" [⟨"status", .varchar, false⟩, ⟨"id", .integer, false⟩])
        (.bin .eq (.col ⟨0, .varchar, false, some "id"⟩) (.lit ⟨1, .str "open", .varchar⟩)))
      [⟨.col ⟨1, .integer, false, none⟩, "id"⟩])
    (.scan 8 "lines" [⟨"order", .integer, true⟩])
    (some (.bin .eq (.col ⟨0, .integer, false, none⟩)
      (.col ⟨1, .integer, true, some "order"⟩)))

theorem misreadOrders_built : misreadOrders.Built 10 where
  checked := by
    simp only [misreadOrders, Plan.Checked, Plan.all_join, Plan.all_project, Plan.all_filter,
      Plan.all_scan]
    exact ⟨rfl, ⟨rfl, rfl, rfl⟩, rfl⟩
  ids := by simp [misreadOrders, Plan.IdsBelow, Plan.id]

theorem misreadOrders_content :
    (({ rules := shippedRules } : Optimizer).optimizeWith 3 .topDown openOrders).Ensures ⟨5, []⟩
      fun q s' => (({ rules := shippedRules } : Optimizer).optimizeWith 3 .topDown
        misreadOrders).Ensures ⟨10, []⟩ fun q' t' =>
          q.content = q'.content ∧
            RunState.reported ⟨5, []⟩ s' = RunState.reported ⟨10, []⟩ t' := by
  have hsame : openOrders.content = misreadOrders.content := rfl
  have hrun := Optimizer.ensuresUnless_optimizeWith (o := { rules := shippedRules })
    (s := ⟨5, []⟩) (List.Subset.refl _) openOrders_built 3 .topDown
  refine Both.ensures ?_ fun e hfails => openOrders_not_canFail _ e (hrun.reason_of_fails hfails)
  exact optimizeWith_content openOrders_built misreadOrders_built openOrders_knownExprs hsame
    (List.Subset.refl _) 3 .topDown

end Semijoin
