import Semijoin.Plan.Explain
import Semijoin.Proofs.Confluence

/-!
# Names of columns

A plan is `Named` if every reference goes by the name of the column that it reads. Firings keep this
for predicates, projected expressions and the conditions of inner joins. A condition that is moved
below a projection can keep an operation of which nothing but names would change; then it goes on
using the names that the projection gives to columns which stay at their positions. `Borrowed` lists
these names, and nothing else goes wrong.
-/

namespace Semijoin

/-- A reference goes by the name of the column that it reads. -/
def Column.NamedIn (fields : List Field) (c : Column) : Prop :=
  ∃ field, atPosition? fields c.index = some field ∧ c.name = some field.name

/-- The reference by the name of the column that it reads. -/
def Column.relabel (fields : List Field) (c : Column) : Column :=
  { c with name := (atPosition? fields c.index).map Field.name }

/-- The expression with every reference by the name of the column that it reads. -/
def Expr.relabel (fields : List Field) : Expr → Expr := bind fun c => col (c.relabel fields)

namespace Plan

/-- The columns that the expressions of a node read. -/
def inputFields : Plan → List Field
  | filter _ input _ | project _ input _ => input.schema
  | join _ _ left right _ => left.schema ++ right.schema
  | scan .. | foreign .. => []

/-- Every reference goes by the name of the column that it reads. -/
def Named (p : Plan) : Prop :=
  p.All fun n => ∀ e ∈ n.exprs, ∀ c ∈ e.columns, c.NamedIn n.inputFields

mutual

/-- The plan with every reference by the name of the column that it reads. -/
def relabel : Plan → Plan
  | scan id relation fields => scan id relation fields
  | filter id input predicate => filter id input.relabel (predicate.relabel input.schema)
  | project id input outputs =>
    project id input.relabel (outputs.map fun o => { o with expr := o.expr.relabel input.schema })
  | join id kind left right condition =>
    join id kind left.relabel right.relabel
      (condition.map (Expr.relabel (left.schema ++ right.schema)))
  | foreign id kind children => foreign id kind (relabelAll children)

def relabelAll : List Plan → List Plan
  | [] => []
  | p :: ps => p.relabel :: relabelAll ps

end

@[simp] theorem relabelAll_eq (ps : List Plan) : relabelAll ps = ps.map relabel := by
  induction ps with
  | nil => rfl
  | cons p ps ih => rw [relabelAll, ih, List.map_cons]

/-- The projections that a semi or anti join over the plan can be moved below. -/
def crossed : Plan → List (List Output)
  | filter _ input _ => input.crossed
  | project _ input outputs => outputs :: input.crossed
  | join _ kind left _ _ => if kind.isFiltering then left.crossed else []
  | scan .. | foreign .. => []

end Plan

/-- The reference goes by a name that a projection gives to a column which it hands on, at its
position, from under another name. -/
def Renames (outputs : List Output) (c : Column) : Prop :=
  ∃ o d, atPosition? outputs c.index = some o ∧ o.expr = .col d ∧ d.same c ∧
    c.name = some o.name ∧ d.name ≠ c.name

/-- The reference goes by a name from a projection that some join can be moved below. -/
def Plan.Borrowed (p : Plan) (c : Column) : Prop :=
  ∃ id kind left right condition, .join id kind left right condition ∈ p.nodes ∧
    kind.isFiltering ∧ ∃ outputs ∈ left.crossed, Renames outputs c

/-- The node is a semi or anti join, and the reference reads its left input under one of the names
`S`. -/
def Plan.Admits (S : Column → Prop) (c : Column) : Plan → Prop
  | join _ kind left _ _ => kind.isFiltering ∧ c.index < left.schema.length ∧ S c
  | scan .. | filter .. | project .. | foreign .. => False

/-- Every reference goes by the name of the column that it reads, or is in the condition of a semi
or anti join and goes by one of the names `S`. -/
def Plan.NamedBut (S : Column → Prop) (p : Plan) : Prop :=
  p.All fun n => ∀ e ∈ n.exprs, ∀ c ∈ e.columns, c.NamedIn n.inputFields ∨ n.Admits S c

/-! ## References of a moved condition -/

namespace Expr

variable {f : Column → Expr} {e e' : Expr}

/-- What comes back equal had nothing but names replaced in it. -/
theorem same_of_mapColumns? (h : e.mapColumns? f = some e') (hsame : e'.same e) :
    ∀ c ∈ e.columns, ∃ d, f c = col d ∧ d.same c := by
  induction e generalizing e' with
  | col c =>
    obtain rfl : f c = e' := by simpa [mapColumns?] using h
    intro a ha
    obtain rfl : a = c := by simpa [columns] using ha
    cases hf : f a with
    | col d =>
      rw [hf] at hsame
      exact ⟨d, rfl, by simpa [same, same?] using hsame⟩
    | lit | bin | un | foreign => simp [hf, same, same?] at hsame
  | lit | foreign => simp [columns]
  | bin op left right ihl ihr =>
    obtain ⟨l', r', hl, hr, rfl⟩ := mapColumns?_bin_eq_some.1 h
    have hboth : l'.same left ∧ r'.same right := by
      by_cases hkept : (l'.same left && r'.same right) = true
      · simpa using hkept
      · rw [if_neg hkept] at hsame
        exact same_bin hsame
    intro a ha
    rcases List.mem_append.1 ha with ha | ha
    · exact ihl hl hboth.1 a ha
    · exact ihr hr hboth.2 a ha
  | un op operand ih =>
    obtain ⟨o', ho, rfl⟩ := mapColumns?_un_eq_some.1 h
    have hoperand : o'.same operand := by
      by_cases hkept : o'.same operand = true
      · exact hkept
      · rw [if_neg hkept] at hsame
        exact same_un hsame
    exact ih ho hoperand

/-- A reference in the result comes from a replacement, or is an old one that was to be replaced by
one of the same column. -/
theorem mem_columns_mapColumns? (h : e.mapColumns? f = some e') {a : Column}
    (ha : a ∈ e'.columns) :
    (∃ c ∈ e.columns, a ∈ (f c).columns) ∨ (a ∈ e.columns ∧ ∃ d, f a = col d ∧ d.same a) := by
  induction e generalizing e' with
  | col c =>
    obtain rfl : f c = e' := by simpa [mapColumns?] using h
    exact .inl ⟨c, by simp [columns], ha⟩
  | lit l =>
    obtain rfl : lit l = e' := by simpa [mapColumns?] using h
    simp [columns] at ha
  | bin op left right ihl ihr =>
    obtain ⟨l', r', hl, hr, rfl⟩ := mapColumns?_bin_eq_some.1 h
    by_cases hkept : (l'.same left && r'.same right) = true
    · rw [if_pos hkept] at ha
      have hsame : (bin op left right).same (bin op left right) := by simp [same, same?_self]
      have hmap : (bin op left right).mapColumns? f = some (bin op left right) := by
        rw [h, if_pos hkept]
      exact .inr ⟨ha, same_of_mapColumns? hmap hsame a ha⟩
    · rw [if_neg hkept] at ha
      rcases List.mem_append.1 ha with ha | ha
      · rcases ihl hl ha with ⟨c, hc, hac⟩ | ⟨hmem, hkeeps⟩
        · exact .inl ⟨c, List.mem_append_left _ hc, hac⟩
        · exact .inr ⟨List.mem_append_left _ hmem, hkeeps⟩
      · rcases ihr hr ha with ⟨c, hc, hac⟩ | ⟨hmem, hkeeps⟩
        · exact .inl ⟨c, List.mem_append_right _ hc, hac⟩
        · exact .inr ⟨List.mem_append_right _ hmem, hkeeps⟩
  | un op operand ih =>
    obtain ⟨o', ho, rfl⟩ := mapColumns?_un_eq_some.1 h
    by_cases hkept : o'.same operand = true
    · rw [if_pos hkept] at ha
      exact .inr ⟨ha, same_of_mapColumns? ho hkept a ha⟩
    · rw [if_neg hkept] at ha
      exact ih ho ha
  | foreign => simp [mapColumns?] at h

end Expr

theorem Column.NamedIn.append {fields : List Field} {c : Column} (h : c.NamedIn fields)
    (more : List Field) : c.NamedIn (fields ++ more) := by
  obtain ⟨field, hat, hname⟩ := h
  exact ⟨field, atPosition?_append_of_eq_some hat, hname⟩

section Below

variable {input : Plan} {outputs : List Output} {fields : List Field} {S : Column → Prop}
  {condition condition' : Expr} {c : Column}

/-- Behind the outputs, a name stays right when the position is moved by the difference in width. -/
theorem Column.NamedIn.shift (h : c.NamedIn (outputs.map Output.field ++ fields))
    (hle : (outputs.length : Int) ≤ c.index) :
    (c.shift ((input.schema.length : Int) - outputs.length)).NamedIn (input.schema ++ fields) := by
  obtain ⟨field, hat, hname⟩ := h
  refine ⟨field, ?_, hname⟩
  rw [← hat, Column.shift, ← List.length_map (f := Output.field)]
  exact atPosition?_append_shift (by simpa using hle)

theorem Column.NamedIn.name_eq {o : Output} (h : c.NamedIn (outputs.map Output.field ++ fields))
    (ho : atPosition? outputs c.index = some o) : c.name = some o.name := by
  obtain ⟨field, hat, hname⟩ := h
  obtain ⟨hi, ho⟩ := atPosition?_eq_some_iff.1 ho
  have hfield : atPosition? (outputs.map Output.field) c.index = some o.field :=
    atPosition?_eq_some_iff.2 ⟨hi, by rw [List.getElem?_map, ho]; rfl⟩
  rw [atPosition?_append_of_eq_some hfield] at hat
  obtain rfl := Option.some.inj hat
  exact hname

theorem Column.NamedIn.index_lt (h : c.NamedIn fields) : c.index < fields.length := by
  obtain ⟨field, hat, -⟩ := h
  obtain ⟨hi, hfield⟩ := atPosition?_eq_some_iff.1 hat
  obtain ⟨hlt, -⟩ := List.getElem?_eq_some_iff.1 hfield
  omega

/-- The references that come from the replacements have right names. -/
theorem namedIn_replacement (hfits : c.FitsIn (outputs.map Output.field ++ fields))
    (hnamed : c.NamedIn (outputs.map Output.field ++ fields) ∨ c.index < outputs.length)
    (houtputs : ∀ o ∈ outputs, ∀ d ∈ o.expr.columns, d.NamedIn input.schema) {a : Column}
    (ha : a ∈ (Expr.replacement (outputs.map Output.expr)
      ((input.schema.length : Int) - outputs.length) c).columns) :
    a.NamedIn (input.schema ++ fields) := by
  rcases hfits.output_or_le with ⟨o, ho, -⟩ | hle
  · rw [replacement_of_eq_some ho] at ha
    exact (houtputs o (mem_of_atPosition? ho) a ha).append fields
  · rw [replacement_of_le hle, Expr.columns, List.mem_singleton] at ha
    subst ha
    rcases hnamed with hnamed | hlt
    · exact hnamed.shift hle
    · omega

/-- The names in a condition that is moved below a projection are right, but for some that the
projection gives to columns which stay where they are. -/
theorem namedBut_below? (hbelow : below? input outputs condition = some condition')
    (hfits : condition.FitsIn (outputs.map Output.field ++ fields))
    (hnamed : ∀ c ∈ condition.columns, c.NamedIn (outputs.map Output.field ++ fields) ∨
      (c.index < outputs.length ∧ S c))
    (houtputs : ∀ o ∈ outputs, ∀ d ∈ o.expr.columns, d.NamedIn input.schema)
    (hS : ∀ c, Renames outputs c → S c) :
    ∀ c ∈ condition'.columns, c.NamedIn (input.schema ++ fields) ∨
      (c.index < input.schema.length ∧ S c) := by
  intro a ha
  rcases Expr.mem_columns_mapColumns? hbelow ha with ⟨c, hc, hac⟩ | ⟨hmem, d, hd, hsame⟩
  · exact .inl (namedIn_replacement (hfits c hc) ((hnamed c hc).imp_right And.left) houtputs hac)
  -- The reference was kept, because what it was to be replaced by differs from it in name only.
  have hindex : d.index = a.index := by
    simp only [Column.same, Bool.and_eq_true, decide_eq_true_eq] at hsame
    exact hsame.1.1
  have hdnamed : d.NamedIn (input.schema ++ fields) :=
    namedIn_replacement (hfits a hmem) ((hnamed a hmem).imp_right And.left) houtputs
      (by rw [hd]; simp [Expr.columns])
  by_cases hname : d.name = a.name
  · obtain ⟨field, hat, hfield⟩ := hdnamed
    exact .inl ⟨field, by rwa [← hindex], by rwa [← hname]⟩
  rcases (hfits a hmem).output_or_le with ⟨o, ho, -⟩ | hle
  · rw [replacement_of_eq_some ho] at hd
    have hdinput : d.NamedIn input.schema :=
      houtputs o (mem_of_atPosition? ho) d (by rw [hd]; simp [Expr.columns])
    refine .inr ⟨hindex ▸ hdinput.index_lt, ?_⟩
    rcases hnamed a hmem with hnamed | ⟨-, hS'⟩
    · exact hS a ⟨o, d, ho, hd, hsame, hnamed.name_eq ho, hname⟩
    · exact hS'
  · -- Behind the outputs only the position can change.
    rw [replacement_of_le hle, Expr.col.injEq] at hd
    subst hd
    exact absurd rfl hname

end Below

/-! ## Firings -/

section Borrowed

variable {id : Nat} {kind : JoinKind} {input left right : Plan} {condition : Option Expr}
  {c : Column}

@[simp] theorem Plan.not_borrowed_scan {relation : Text} {fields : List Field} :
    ¬ (scan id relation fields).Borrowed c := by
  simp [Borrowed, nodes]

@[simp] theorem Plan.borrowed_filter {predicate : Expr} :
    (filter id input predicate).Borrowed c ↔ input.Borrowed c := by
  simp [Borrowed, nodes]

@[simp] theorem Plan.borrowed_project {outputs : List Output} :
    (project id input outputs).Borrowed c ↔ input.Borrowed c := by
  simp [Borrowed, nodes]

@[simp] theorem Plan.borrowed_foreign {foreignKind : ForeignKind} {children : List Plan} :
    (foreign id foreignKind children).Borrowed c ↔ ∃ d ∈ children, d.Borrowed c := by
  simp only [Borrowed, nodes, nodesAll_eq, List.mem_cons, List.mem_flatMap, reduceCtorEq,
    false_or]
  grind

@[simp] theorem Plan.borrowed_join :
    (join id kind left right condition).Borrowed c ↔
      (kind.isFiltering ∧ ∃ outputs ∈ left.crossed, Renames outputs c) ∨
        left.Borrowed c ∨ right.Borrowed c := by
  simp only [Borrowed, nodes, List.mem_cons, List.mem_append, join.injEq]
  constructor
  · rintro ⟨id', kind', left', right', condition', ⟨rfl, rfl, rfl, rfl, rfl⟩ | hl | hr, h⟩
    · exact .inl h
    · exact .inr (.inl ⟨id', kind', left', right', condition', hl, h⟩)
    · exact .inr (.inr ⟨id', kind', left', right', condition', hr, h⟩)
  · rintro (h | ⟨id', kind', left', right', condition', hl, h⟩ |
      ⟨id', kind', left', right', condition', hr, h⟩)
    · exact ⟨id, kind, left, right, condition, .inl ⟨rfl, rfl, rfl, rfl, rfl⟩, h⟩
    · exact ⟨id', kind', left', right', condition', .inr (.inl hl), h⟩
    · exact ⟨id', kind', left', right', condition', .inr (.inr hr), h⟩

end Borrowed

section NamedBut

variable {id : Nat} {kind : JoinKind} {input left right : Plan} {S : Column → Prop}

@[simp] theorem Plan.namedBut_filter {predicate : Expr} :
    (filter id input predicate).NamedBut S ↔
      (∀ c ∈ predicate.columns, c.NamedIn input.schema) ∧ input.NamedBut S := by
  simp [NamedBut, exprs, inputFields, Admits]

@[simp] theorem Plan.namedBut_project {outputs : List Output} :
    (project id input outputs).NamedBut S ↔
      (∀ o ∈ outputs, ∀ c ∈ o.expr.columns, c.NamedIn input.schema) ∧ input.NamedBut S := by
  simp [NamedBut, exprs, inputFields, Admits]

@[simp] theorem Plan.namedBut_foreign {foreignKind : ForeignKind} {children : List Plan} :
    (foreign id foreignKind children).NamedBut S ↔ ∀ c ∈ children, c.NamedBut S := by
  simp [NamedBut, exprs]

@[simp] theorem Plan.namedBut_join {condition : Option Expr} :
    (join id kind left right condition).NamedBut S ↔
      (∀ e ∈ condition, ∀ c ∈ e.columns, c.NamedIn (left.schema ++ right.schema) ∨
        (kind.isFiltering ∧ c.index < left.schema.length ∧ S c)) ∧
      left.NamedBut S ∧ right.NamedBut S := by
  simp [NamedBut, exprs, inputFields, Admits]

end NamedBut

section Rewrites

variable {rules : List Rule} {rule : Rule} {next n : Nat} {p q : Plan} {S : Column → Prop}
  {c : Column}

theorem Rule.Fires.crossed (h : rule.Fires next p q) : q.crossed = p.crossed := by
  cases h with
  | project hkind | filter hkind | filterBelowProject hkind => simp [Plan.crossed, hkind]

/-- Joins that have moved down have fewer projections left to be moved below. -/
theorem Rule.Fires.borrowed (h : rule.Fires next p q) (hc : q.Borrowed c) : p.Borrowed c := by
  cases h with
  | project hkind | filter hkind | filterBelowProject hkind =>
    simp only [Plan.borrowed_filter, Plan.borrowed_project, Plan.borrowed_join, Plan.crossed,
      hkind, true_and, List.exists_mem_cons_iff] at hc ⊢
    grind

section Below

variable {id pid fid id₁ id₂ : Nat} {kind : JoinKind} {input right : Plan} {outputs : List Output}
  {predicate c c' : Expr} {condition : Option Expr}

theorem namedBut_belowProject (hkind : kind.isFiltering)
    (hbelow : below? input outputs c = some c')
    (hp : (Plan.join id kind (.project pid input outputs) right (some c)).Checked)
    (hS : ∀ a, Renames outputs a → S a)
    (h : (Plan.join id kind (.project pid input outputs) right (some c)).NamedBut S) :
    (Plan.project id₂ (.join id₁ kind input right (some c')) outputs).NamedBut S := by
  simp only [Plan.namedBut_join, Plan.namedBut_project, Option.mem_some_iff, forall_eq',
    schema_project, hkind, true_and, List.length_map] at h ⊢
  obtain ⟨hcondition, ⟨houtputs, hinput⟩, hright⟩ := h
  rw [schema_join_of_isFiltering hkind]
  have hmoved := namedBut_below? hbelow hp.condition.2 hcondition houtputs hS
  exact ⟨houtputs, hmoved, hinput, hright⟩

theorem namedBut_belowFilter (hkind : kind.isFiltering)
    (h : (Plan.join id kind (.filter fid input predicate) right condition).NamedBut S) :
    (Plan.filter id₂ (.join id₁ kind input right condition) predicate).NamedBut S := by
  simp only [Plan.namedBut_join, Plan.namedBut_filter, schema_filter] at h ⊢
  obtain ⟨hcondition, ⟨hpredicate, hinput⟩, hright⟩ := h
  rw [schema_join_of_isFiltering hkind]
  exact ⟨hpredicate, hcondition, hinput, hright⟩

end Below

theorem Rule.Fires.namedBut (h : rule.Fires next p q) (hp : p.Checked)
    (hS : ∀ c, p.Borrowed c → S c) (hnamed : p.NamedBut S) : q.NamedBut S := by
  cases h with
  | @project _ _ _ _ _ _ _ outputs _ _ hkind hbelow =>
    have hrenames : ∀ a, Renames outputs a → S a := fun a ha =>
      hS a (Plan.borrowed_join.2 (.inl ⟨hkind, outputs, List.mem_cons_self, ha⟩))
    exact namedBut_belowProject hkind hbelow hp hrenames hnamed
  | filter hkind => exact namedBut_belowFilter hkind hnamed
  | @filterBelowProject _ _ fid id₁ _ id₃ kind input right outputs predicate _ c hkind hbelow =>
    have hrenames : ∀ a, Renames outputs a → S a := fun a ha =>
      hS a (Plan.borrowed_join.2 (.inl ⟨hkind, outputs, List.mem_cons_self, ha⟩))
    have hproject : (Plan.project id₃ (.join id₁ kind (.filter fid input predicate) right (some c))
        outputs).NamedBut S := namedBut_belowProject hkind hbelow hp hrenames hnamed
    obtain ⟨houtputs, hjoin⟩ := Plan.namedBut_project.1 hproject
    refine Plan.namedBut_project.2 ⟨?_, namedBut_belowFilter hkind hjoin⟩
    simpa only [schema_filter, schema_join_of_isFiltering hkind] using houtputs

namespace Rewrites

theorem crossed (h : Rewrites rules next n p q) : q.crossed = p.crossed := by
  induction h with
  | refl => rfl
  | fires _ h => exact h.crossed
  | trans _ _ ih ih' => rw [ih', ih]
  | filter _ _ _ ih => exact ih
  | project _ _ _ ih => simp only [Plan.crossed, ih]
  | foreign => rfl
  | join _ _ _ _ ih => simp only [Plan.crossed, ih]

theorem borrowed (h : Rewrites rules next n p q) (hc : q.Borrowed c) : p.Borrowed c := by
  induction h with
  | refl => exact hc
  | fires _ h => exact h.borrowed hc
  | trans _ _ ih ih' => exact ih (ih' hc)
  | filter _ _ _ ih | project _ _ _ ih =>
    simp only [Plan.borrowed_filter, Plan.borrowed_project] at hc ⊢
    exact ih hc
  | foreign _ _ _ ih =>
    simp only [Plan.borrowed_foreign, List.mem_append, List.mem_cons] at hc ⊢
    grind
  | join _ _ h _ ih ih' =>
    rw [Plan.borrowed_join] at hc ⊢
    rw [h.crossed] at hc
    exact hc.imp_right (.imp ih ih')

/-- Rewriting brings no name to a place where it is wrong, but those that a join borrows. -/
theorem namedBut (h : Rewrites rules next n p q) (hp : p.Checked) (hS : ∀ c, p.Borrowed c → S c)
    (hnamed : p.NamedBut S) : q.NamedBut S := by
  induction h with
  | refl => exact hnamed
  | fires _ h => exact h.namedBut hp hS hnamed
  | trans h _ ih ih' =>
    exact ih' (h.checked hp) (fun c hc => hS c (h.borrowed hc)) (ih hp hS hnamed)
  | filter _ _ h ih =>
    simp only [Plan.namedBut_filter, Plan.borrowed_filter, h.schema] at hnamed hS ⊢
    exact ⟨hnamed.1, ih (Plan.all_filter.1 hp).2 hS hnamed.2⟩
  | project _ _ h ih =>
    simp only [Plan.namedBut_project, Plan.borrowed_project, h.schema] at hnamed hS ⊢
    exact ⟨hnamed.1, ih (Plan.all_project.1 hp).2 hS hnamed.2⟩
  | @foreign _ _ _ _ c c' before behind _ _ _ ih =>
    rw [Plan.namedBut_foreign] at hnamed ⊢
    have hc : c.Checked := hp.child (by simp [Plan.children])
    have hSc : ∀ a, c.Borrowed a → S a := fun a ha =>
      hS a (Plan.borrowed_foreign.2 ⟨c, by simp, ha⟩)
    exact Plan.forall_mem_exchange (ih hc hSc) hnamed
  | join _ _ h h' ih ih' =>
    obtain ⟨-, hleft, hright⟩ := Plan.all_join.1 hp
    simp only [Plan.namedBut_join, Plan.borrowed_join, h.schema, h'.schema] at hnamed hS ⊢
    obtain ⟨hcondition, hl, hr⟩ := hnamed
    exact ⟨hcondition, ih hleft (fun c hc => hS c (.inr (.inl hc))) hl,
      ih' hright (fun c hc => hS c (.inr (.inr hc))) hr⟩

end Rewrites

end Rewrites

/-! ## Right names -/

section Named

variable {S : Column → Prop} {fields : List Field} {p : Plan} {e : Expr}

theorem Plan.Named.but (h : p.Named) (S : Column → Prop) : p.NamedBut S :=
  fun n hn e he c hc => .inl (h n hn e he c hc)

/-- Without names to borrow all names are right. -/
theorem Plan.NamedBut.named (h : p.NamedBut S) (hS : ∀ c, ¬ S c) : p.Named := by
  intro n hn e he c hc
  refine (h n hn e he c hc).resolve_right fun hadmits => ?_
  cases n with
  | scan | filter | project | foreign => exact hadmits
  | join => exact hS c hadmits.2.2

theorem Expr.relabel_eq (h : ∀ c ∈ e.columns, c.NamedIn fields) : e.relabel fields = e := by
  induction e with
  | col c =>
    obtain ⟨field, hat, hname⟩ := h c (by simp [columns])
    simp [relabel, bind, Column.relabel, hat, ← hname]
  | lit | foreign => rfl
  | bin op left right ihl ihr =>
    have hl := ihl fun c hc => h c (List.mem_append_left _ hc)
    have hr := ihr fun c hc => h c (List.mem_append_right _ hc)
    exact congrArg₂ (bin op) hl hr
  | un op operand ih => exact congrArg (un op) (ih h)

/-- Where all names are right, calling every column by its name changes nothing. -/
theorem Plan.NamedBut.relabel_eq (h : p.NamedBut S) (hS : ∀ c, ¬ S c) : p.relabel = p := by
  induction p with
  | scan => rfl
  | filter id input predicate ih =>
    obtain ⟨hpredicate, hinput⟩ := namedBut_filter.1 h
    rw [relabel, ih hinput, Expr.relabel_eq hpredicate]
  | project id input outputs ih =>
    obtain ⟨houtputs, hinput⟩ := namedBut_project.1 h
    have hsame (o : Output) (ho : o ∈ outputs) :
        ({ o with expr := o.expr.relabel input.schema } : Output) = o := by
      rw [Expr.relabel_eq (houtputs o ho)]
    rw [relabel, ih hinput, List.map_congr_left hsame, List.map_id']
  | foreign id kind children ih =>
    have hchildren := fun c hc => ih c hc (namedBut_foreign.1 h c hc)
    rw [relabel, relabelAll_eq, List.map_congr_left hchildren, List.map_id']
  | join id kind left right condition ihl ihr =>
    obtain ⟨hcondition, hleft, hright⟩ := namedBut_join.1 h
    rw [relabel, ihl hleft, ihr hright]
    cases condition with
    | none => rfl
    | some e =>
      have hnamed : ∀ c ∈ e.columns, c.NamedIn (left.schema ++ right.schema) := fun c hc =>
        (hcondition e rfl c hc).resolve_right fun hadmits => hS c hadmits.2.2
      rw [Option.map_some, Expr.relabel_eq hnamed]

end Named

/-! ## Names and identities -/

section Anonymous

variable {S : Column → Prop} {p : Plan}

theorem Plan.namedBut_anonymous : p.anonymous.NamedBut S ↔ p.NamedBut S := by
  induction p with
  | scan => simp [anonymous, NamedBut, exprs]
  | filter _ _ _ ih | project _ _ _ ih => simp [anonymous, ih, schema_anonymous]
  | foreign _ _ _ ih => simpa [anonymous] using forall₂_congr ih
  | join _ _ _ _ _ ihl ihr => simp [anonymous, ihl, ihr, schema_anonymous]

@[simp] theorem Plan.isWritable_anonymous : p.anonymous.isWritable = p.isWritable := by
  induction p with
  | scan => rfl
  | filter _ _ _ ih | project _ _ _ ih => simp [anonymous, isWritable, ih]
  | join _ _ _ _ _ ihl ihr => simp [anonymous, isWritable, ihl, ihr]
  | foreign _ _ children ih =>
    rw [Bool.eq_iff_iff]
    simp only [anonymous, anonymousAll_eq, isWritable, areWritable_eq, List.all_eq_true,
      List.forall_mem_map]
    exact forall₂_congr fun c hc => by rw [ih c hc]

theorem Plan.children_anonymous : p.anonymous.children = p.children.map anonymous := by
  cases p <;> simp [anonymous, children]

/-- Without hints, a header does not depend on identities. -/
theorem Plan.header_anonymous :
    p.anonymous.header (fun _ => none) = p.header fun _ => none := by
  cases p <;> rfl

/-- Without hints, the text that explains a plan does not depend on identities. -/
theorem Plan.explain_anonymous :
    p.anonymous.explain? (fun _ => none) = p.explain? fun _ => none := by
  have hlines : ∀ depth, p.anonymous.lines (fun _ => none) depth =
      p.lines (fun _ => none) depth := by
    induction p using induction_children with
    | h p ih =>
      intro depth
      rw [lines_eq, lines_eq, header_anonymous, children_anonymous, List.flatMap_map,
        List.flatMap_congr fun c hc => ih c hc (depth + 1)]
  simp only [explain?, lines?, hlines, isWritable_anonymous]

end Anonymous

/-! ## Runs -/

open Run

/-- In what a run that returns makes of a plan with right names, every name is right, but those that
conditions of semi and anti joins borrow: they are names that a projection in the plan gives to a
column which it hands on at its position from under another name. Where there is no such projection
below a semi or anti join, all names are right, and the text that explains the result shows the
columns by the names that they have where they are read. -/
theorem optimizeWith_names {p : Plan} {s : RunState} (hp : p.Built s.next) (hnamed : p.Named)
    {o : Optimizer} (hrules : o.rules ⊆ shippedRules) (bound : Int) (order : MatchOrder) :
    (o.optimizeWith bound order p).EnsuresUnless (o.CanFail bound p) s fun q _ =>
      q.NamedBut p.Borrowed ∧
      ((∀ c, ¬ p.Borrowed c) →
        q.Named ∧ ∀ hints, q.explain? hints = q.relabel.explain? hints) := by
  refine (o.ensuresUnless_optimizeWith hrules hp bound order).imp ?_
  rintro q s' ⟨counts, hprogress, -⟩
  have hbut : q.NamedBut p.Borrowed :=
    hprogress.rewrites.namedBut hp.checked (fun _ hc => hc) (hnamed.but _)
  refine ⟨hbut, fun hnone => ⟨hbut.named hnone, fun hints => ?_⟩⟩
  rw [hbut.relabel_eq hnone]

/-- The open orders that have a line, by the names that their columns have. -/
def listedOrders : Plan :=
  .join 4 .semi
    (.project 2
      (.filter 1 (.scan 0 "orders" [⟨"status", .varchar, false⟩, ⟨"id", .integer, false⟩])
        (.bin .eq (.col ⟨0, .varchar, false, some "status"⟩) (.lit ⟨0, .str "open", .varchar⟩)))
      [⟨.col ⟨1, .integer, false, some "id"⟩, "order"⟩])
    (.scan 3 "lines" [⟨"order", .integer, true⟩])
    (some (.bin .eq (.col ⟨0, .integer, false, some "order"⟩)
      (.col ⟨1, .integer, true, some "order"⟩)))

theorem listedOrders_built : listedOrders.Built 5 where
  checked := by
    simp only [listedOrders, Plan.Checked, Plan.all_join, Plan.all_project, Plan.all_filter,
      Plan.all_scan]
    exact ⟨rfl, ⟨rfl, rfl, rfl⟩, rfl⟩
  ids := by simp [listedOrders, Plan.IdsBelow, Plan.id]

theorem listedOrders_knownExprs : listedOrders.KnownExprs := by
  simp [listedOrders, Plan.KnownExprs, Plan.exprs, Expr.isKnown]

theorem listedOrders_named : listedOrders.Named := by
  simp [listedOrders, Plan.Named, Plan.exprs, Plan.inputFields, Plan.schema, Expr.columns,
    Column.NamedIn, atPosition?, Output.field]

/-- The projection calls the second column by another name, but it moves it to the front. -/
theorem listedOrders_not_borrowed (c : Column) : ¬ listedOrders.Borrowed c := by
  simp only [listedOrders, Plan.borrowed_join, Plan.borrowed_project, Plan.borrowed_filter,
    Plan.not_borrowed_scan, Plan.crossed, or_false, List.mem_singleton, exists_eq_left]
  rintro ⟨-, o, d, ho, hd, hsame, -⟩
  obtain ⟨-, ho⟩ := atPosition?_eq_some_iff.1 ho
  have hfront : c.index.toNat = 0 := by
    obtain ⟨hlt, -⟩ := List.getElem?_eq_some_iff.1 ho
    simpa using hlt
  rw [hfront] at ho
  obtain rfl := Option.some.inj ho
  obtain rfl := Expr.col.inj hd
  have hindex : c.index = 1 := by
    simp only [Column.same, Bool.and_eq_true, decide_eq_true_eq] at hsame
    exact hsame.1.1.symm
  omega

theorem listedOrders_names :
    (({ rules := shippedRules } : Optimizer).optimizeWith 3 .topDown listedOrders).Ensures ⟨5, []⟩
      fun q _ => q.Named ∧ ∀ hints, q.explain? hints = q.relabel.explain? hints := by
  have hrun := optimizeWith_names (s := ⟨5, []⟩) (o := { rules := shippedRules })
    listedOrders_built listedOrders_named (List.Subset.refl _) 3 .topDown
  have hrebuilds : listedOrders.Rebuilds :=
    Plan.KnownNodes.rebuilds (by simp [listedOrders, Plan.KnownNodes])
  refine (hrun.ensures fun e => Optimizer.not_canFail listedOrders_built.checked
    listedOrders_knownExprs hrebuilds (by decide) (by decide +kernel)).imp ?_
  rintro q s' ⟨-, hright⟩
  exact hright listedOrders_not_borrowed

/-- The orders that have a line, with the names of their columns exchanged. -/
def exchangedOrders : Plan :=
  .join 3 .semi
    (.project 1 (.scan 0 "orders" [⟨"id", .integer, true⟩, ⟨"parent", .integer, true⟩])
      [⟨.col ⟨0, .integer, true, some "id"⟩, "parent"⟩,
        ⟨.col ⟨1, .integer, true, some "parent"⟩, "id"⟩])
    (.scan 2 "lines" [⟨"order", .integer, true⟩])
    (some (.bin .eq (.col ⟨0, .integer, true, some "parent"⟩)
      (.col ⟨2, .integer, true, some "order"⟩)))

theorem exchangedOrders_built : exchangedOrders.Built 4 where
  checked := by
    simp only [exchangedOrders, Plan.Checked, Plan.all_join, Plan.all_project, Plan.all_scan]
    exact ⟨rfl, ⟨rfl, rfl⟩, rfl⟩
  ids := by simp [exchangedOrders, Plan.IdsBelow, Plan.id]

theorem exchangedOrders_knownExprs : exchangedOrders.KnownExprs := by
  simp [exchangedOrders, Plan.KnownExprs, Plan.exprs, Expr.isKnown]

theorem exchangedOrders_named : exchangedOrders.Named := by
  simp [exchangedOrders, Plan.Named, Plan.exprs, Plan.inputFields, Plan.schema, Expr.columns,
    Column.NamedIn, atPosition?, Output.field]

/-- A run shows that the second column is read, but it is the first one: the names of columns do not
always stay right. -/
theorem exchangedOrders_misnamed :
    exchangedOrders.Built 4 ∧ exchangedOrders.KnownExprs ∧ exchangedOrders.Named ∧
      (({ rules := shippedRules } : Optimizer).optimizeWith 10 .bottomUp exchangedOrders).Ensures
        ⟨4, []⟩ fun q _ => ¬ q.Named ∧
          q.explain? (fun _ => none) = some (Text.join "\n"
            ["Project exprs=[id AS parent, parent AS id]",
              "  -> Join type=SEMI condition=(parent = order)",
              "    -> Scan relation=orders columns=[id, parent]",
              "    -> Scan relation=lines columns=[order]"]) := by
  refine ⟨exchangedOrders_built, exchangedOrders_knownExprs, exchangedOrders_named, ?_⟩
  have hrebuilds : exchangedOrders.Rebuilds :=
    Plan.KnownNodes.rebuilds (by simp [exchangedOrders, Plan.KnownNodes])
  have hrun := Optimizer.ensuresUnless_optimizeWith (s := ⟨4, []⟩) (o := { rules := shippedRules })
    (List.Subset.refl _) exchangedOrders_built 10 .bottomUp
  refine (hrun.ensures fun e => Optimizer.not_canFail exchangedOrders_built.checked
    exchangedOrders_knownExprs hrebuilds (by decide) (by decide +kernel)).imp ?_
  rintro q s' ⟨counts, hprogress, hends⟩
  have hidle := hends.idle_of_potential_lt hprogress.rewrites (by decide)
  have hq : q.Checked := (hprogress.built exchangedOrders_built).checked
  have he : Enabled.In ⟨true, true⟩ shippedRules := ⟨by simp [shippedRules], by simp [shippedRules]⟩
  have hresult : q.anonymous = exchangedOrders.settle ⟨true, true⟩ := calc
    q.anonymous = q.settle ⟨true, true⟩ := (q.settle_of_idle he hq hidle).symm
    _ = exchangedOrders.settle ⟨true, true⟩ := hprogress.rewrites.settle he
  refine ⟨fun hnamed => ?_, ?_⟩
  · have hbut := Plan.namedBut_anonymous.2 (hnamed.but fun _ => False)
    rw [hresult] at hbut
    have hsame := congrArg (Plan.explain? fun _ => none) (hbut.relabel_eq fun _ => not_false)
    exact absurd hsame (by decide)
  · rw [← Plan.explain_anonymous, hresult]
    decide +kernel

end Semijoin
