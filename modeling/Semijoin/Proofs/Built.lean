import Mathlib.Algebra.Ring.Nat
import Semijoin.Plan.Build
import Semijoin.Proofs.Substitution

/-!
# Plans that passed construction

The nodes of a plan, predicates that hold of all of them, and what the checks of construction
amount to: `Expr.FitsIn` says that every reference of an expression exists in a schema, with the
type and at most the nullability it is read with. `Plan.Built` is what building establishes: every
node passed its check, and every identity was drawn from the supply before it reached its present
state.
-/

namespace Semijoin

/-! ## Positions of a list -/

section Positions

variable {α : Type} {xs xs' ys : List α} {i : Int} {x : α}

theorem atPosition?_eq_some_iff : atPosition? xs i = some x ↔ 0 ≤ i ∧ xs[i.toNat]? = some x := by
  simp [atPosition?]

theorem atPosition?_eq_none_iff : atPosition? xs i = none ↔ ¬ (0 ≤ i ∧ i < xs.length) := by
  simp only [atPosition?, ite_eq_right_iff, List.getElem?_eq_none_iff]
  omega

theorem atPosition?_append_of_eq_some (h : atPosition? xs i = some x) :
    atPosition? (xs ++ ys) i = some x := by
  rw [atPosition?_eq_some_iff] at h ⊢
  obtain ⟨hi, hx⟩ := h
  exact ⟨hi, by rw [List.getElem?_append_left (List.getElem?_eq_some_iff.1 hx).1, hx]⟩

/-- Behind a front, only the distance from its end matters. -/
theorem atPosition?_append_of_le (h : (xs.length : Int) ≤ i) :
    atPosition? (xs ++ ys) i = ys[(i - xs.length).toNat]? := by
  rw [atPosition?, if_pos (by omega), List.getElem?_append_right (by omega)]
  congr 1
  omega

/-- Exchanging the front of a list moves what stands behind it by the difference in length. -/
theorem atPosition?_append_shift (h : (xs.length : Int) ≤ i) :
    atPosition? (xs' ++ ys) (i + ((xs'.length : Int) - xs.length)) = atPosition? (xs ++ ys) i := by
  rw [atPosition?_append_of_le h, atPosition?_append_of_le (by omega)]
  congr 2
  omega

end Positions

/-! ## Expressions over a schema -/

/-- Whether a reference may be read from a schema. -/
def Column.FitsIn (fields : List Field) (c : Column) : Prop :=
  ∃ field, atPosition? fields c.index = some field ∧ c.type = field.type ∧
    (field.nullable → c.nullable)

/-- Whether every reference of an expression may be read from a schema. -/
def Expr.FitsIn (fields : List Field) (e : Expr) : Prop := ∀ c ∈ e.columns, c.FitsIn fields

theorem Column.FitsIn.append {fields : List Field} {c : Column} (h : c.FitsIn fields)
    (more : List Field) : c.FitsIn (fields ++ more) := by
  obtain ⟨field, hat, hfits⟩ := h
  exact ⟨field, atPosition?_append_of_eq_some hat, hfits⟩

theorem Expr.fitsIn_congr {fields : List Field} {e e' : Expr} (h : e.unnamed = e'.unnamed) :
    e.FitsIn fields ↔ e'.FitsIn fields := by
  have hcolumns : e.columns.map Column.unnamed = e'.columns.map Column.unnamed := by
    rw [← columns_unnamed, h, columns_unnamed]
  have hall (a : Expr) :
      a.FitsIn fields ↔ ∀ c ∈ a.columns.map Column.unnamed, c.FitsIn fields := by
    simp [Expr.FitsIn, Column.FitsIn, Column.unnamed]
  rw [hall, hall, hcolumns]

theorem Expr.isKnown_congr {e e' : Expr} (h : e.unnamed = e'.unnamed) :
    e.isKnown = e'.isKnown := by
  rw [← isKnown_unnamed, h, isKnown_unnamed]

theorem Expr.isWritable_congr {e e' : Expr} (h : e.unnamed = e'.unnamed) :
    e.isWritable = e'.isWritable := by
  rw [← isWritable_unnamed, h, isWritable_unnamed]

theorem Expr.type_congr {e e' : Expr} (h : e.unnamed = e'.unnamed) : e.type = e'.type := by
  rw [← type_unnamed, h, type_unnamed]

/-! ## Sets of positions -/

namespace Positions

theorem mem_insert {i j : Int} {js : Positions} : i ∈ insert j js ↔ i = j ∨ i ∈ js := by
  induction js with
  | nil => simp [insert]
  | cons k ks ih =>
    rw [insert]
    split
    · simp
    · split
      · rename_i heq
        simp [heq]
      · simp only [List.mem_cons, ih]
        grind

theorem mem_union {i : Int} {is js : Positions} : i ∈ union is js ↔ i ∈ is ∨ i ∈ js := by
  induction is with
  | nil => simp [union]
  | cons j is ih =>
    have hunion : union (j :: is) js = insert j (union is js) := rfl
    rw [hunion, mem_insert, ih, List.mem_cons, or_assoc]

theorem mem_below {i : Int} {n : Nat} : i ∈ below n ↔ 0 ≤ i ∧ i < n := by
  simp only [below, List.mem_map, List.mem_range]
  constructor
  · rintro ⟨k, hk, rfl⟩
    simpa using hk
  · rintro ⟨h0, hn⟩
    exact ⟨i.toNat, by omega, Int.toNat_of_nonneg h0⟩

end Positions

theorem Expr.mem_positions {i : Int} {e : Expr} :
    i ∈ e.positions ↔ ∃ c ∈ e.columns, c.index = i := by
  induction e with
  | col | lit | foreign => simp [positions, columns, eq_comm]
  | bin op left right ihl ihr =>
    simp only [positions, columns, Positions.mem_union, ihl, ihr, List.mem_append]
    grind
  | un op operand ih => exact ih

/-- An expression that fits a schema reads positions of the schema only. -/
theorem Expr.FitsIn.readsOnly {fields : List Field} {e : Expr} (h : e.FitsIn fields) :
    e.readsOnly (Positions.below fields.length) := by
  simp only [Expr.readsOnly, List.all_eq_true, List.contains_iff_mem]
  intro i hi
  obtain ⟨c, hc, rfl⟩ := mem_positions.1 hi
  obtain ⟨field, hat, -⟩ := h c hc
  obtain ⟨h0, hfield⟩ := atPosition?_eq_some_iff.1 hat
  obtain ⟨hlt, -⟩ := List.getElem?_eq_some_iff.1 hfield
  exact Positions.mem_below.2 ⟨h0, by omega⟩

/-! ## The checks -/

theorem forM_eq_ok_iff {α ε : Type} {f : α → Except ε Unit} {xs : List α} :
    xs.forM f = .ok () ↔ ∀ x ∈ xs, f x = .ok () := by
  induction xs with
  | nil => simp [pure, Except.pure]
  | cons x xs ih =>
    cases hx : f x with
    | error e => simp [List.forM, Bind.bind, Except.bind, hx]
    | ok u => simpa [List.forM, Bind.bind, Except.bind, hx] using ih

theorem checkColumn_eq_ok_iff {role : ExprRole} {fields : List Field} {c : Column} :
    checkColumn role fields c = .ok () ↔ c.FitsIn fields := by
  cases hat : atPosition? fields c.index with
  | none => simp [checkColumn, Column.FitsIn, hat]
  | some field => grind [checkColumn, Column.FitsIn]

theorem checkColumns_eq_ok_iff (role : ExprRole) {fields : List Field} {e : Expr} :
    checkColumns role fields e = .ok () ↔ e.FitsIn fields := by
  simp only [checkColumns, forM_eq_ok_iff, checkColumn_eq_ok_iff, Expr.FitsIn]

theorem checkBoolean_eq_ok_iff (role : ExprRole) {e : Expr} :
    checkBoolean role e = .ok () ↔ e.type = .boolean := by
  cases h : e.sql? <;> simp [checkBoolean, h]

theorem checkFilter_eq_ok_iff {input : Plan} {predicate : Expr} :
    checkFilter input predicate = .ok () ↔
      predicate.type = .boolean ∧ predicate.FitsIn input.schema := by
  rw [← checkBoolean_eq_ok_iff .predicate, ← checkColumns_eq_ok_iff .predicate]
  cases h : checkBoolean .predicate predicate <;> simp [checkFilter, Bind.bind, Except.bind, h]

theorem checkProject_eq_ok_iff {input : Plan} {outputs : List Output} :
    checkProject input outputs = .ok () ↔
      outputs ≠ [] ∧ ∀ o ∈ outputs, o.expr.FitsIn input.schema := by
  simp only [checkProject, ← checkColumns_eq_ok_iff .output, ← forM_eq_ok_iff]
  cases outputs with
  | nil => simp [Bind.bind, Except.bind, throw, throwThe, MonadExceptOf.throw]
  | cons o os => simp [Bind.bind, Except.bind]

theorem checkJoin_some_eq_ok_iff (kind : JoinKind) {left right : Plan} {condition : Expr} :
    checkJoin kind left right (some condition) = .ok () ↔
      condition.type = .boolean ∧ condition.FitsIn (left.schema ++ right.schema) := by
  rw [← checkBoolean_eq_ok_iff .condition, ← checkColumns_eq_ok_iff .condition]
  cases h : checkBoolean .condition condition <;> simp [checkJoin, Bind.bind, Except.bind, h]

/-- A semi or anti join does not do without a condition. -/
theorem exists_condition_of_checkJoin {kind : JoinKind} {left right : Plan}
    {condition : Option Expr} (hkind : kind.isFiltering)
    (h : checkJoin kind left right condition = .ok ()) : ∃ e, condition = some e := by
  cases condition with
  | some e => exact ⟨e, rfl⟩
  | none => cases kind <;> simp_all [checkJoin, JoinKind.isFiltering, throw, throwThe,
      MonadExceptOf.throw]

namespace Plan

/-- The expressions that a node holds itself. -/
@[grind =] def exprs : Plan → List Expr
  | filter _ _ predicate => [predicate]
  | project _ _ outputs => outputs.map Output.expr
  | join _ _ _ _ condition => condition.toList
  | scan .. | foreign .. => []

/-! ## Nodes -/

mutual

/-- The nodes of a plan, each before those below it. -/
@[grind =] def nodes : Plan → List Plan
  | scan id relation fields => [scan id relation fields]
  | filter id input predicate => filter id input predicate :: input.nodes
  | project id input outputs => project id input outputs :: input.nodes
  | join id kind left right condition =>
    join id kind left right condition :: (left.nodes ++ right.nodes)
  | foreign id kind children => foreign id kind children :: nodesAll children

/-- The nodes of several plans. -/
def nodesAll : List Plan → List Plan
  | [] => []
  | p :: ps => p.nodes ++ nodesAll ps

end

@[simp, grind =] theorem nodesAll_eq (ps : List Plan) : nodesAll ps = ps.flatMap nodes := by
  induction ps with
  | nil => rfl
  | cons p ps ih => rw [nodesAll, ih, List.flatMap_cons]

theorem nodes_eq (p : Plan) : p.nodes = p :: p.children.flatMap nodes := by
  cases p <;> simp [nodes, children]

@[simp] theorem sizes_eq (ps : List Plan) : sizes ps = (ps.map size).sum := by
  induction ps with
  | nil => rfl
  | cons p ps ih => rw [sizes, ih, List.map_cons, List.sum_cons]

theorem size_eq (p : Plan) : p.size = (p.children.map size).sum + 1 := by
  rw [size_eq_sizes, sizes_eq]

/-- Whatever holds of a node when it holds of its children holds of every plan. -/
theorem induction_children {P : Plan → Prop} (h : ∀ p, (∀ c ∈ p.children, P c) → P p) (p : Plan) :
    P p := by
  induction p with
  | scan => exact h _ fun c hc => nomatch hc
  | filter _ input _ ih | project _ input _ ih =>
    exact h _ fun c hc => List.mem_singleton.mp hc ▸ ih
  | join _ _ left right _ ihl ihr => exact h _ (by simp [children, ihl, ihr])
  | foreign _ _ children ih => exact h _ ih

theorem self_mem_nodes (p : Plan) : p ∈ p.nodes := p.nodes_eq ▸ List.mem_cons_self

theorem nodes_sublist_of_mem_children {p c : Plan} (h : c ∈ p.children) :
    c.nodes.Sublist p.nodes := by
  rw [p.nodes_eq, List.flatMap_def]
  exact .cons _ (List.sublist_flatten_of_mem (List.mem_map_of_mem h))

theorem nodes_sublist {p n : Plan} (h : n ∈ p.nodes) : n.nodes.Sublist p.nodes := by
  induction p using induction_children with
  | h p ih =>
    rw [p.nodes_eq] at h
    rcases List.mem_cons.1 h with rfl | h
    · exact .refl _
    · obtain ⟨c, hc, h⟩ := List.mem_flatMap.1 h
      exact (ih c hc h).trans (nodes_sublist_of_mem_children hc)

theorem nodes_subset {p n : Plan} (h : n ∈ p.nodes) : n.nodes ⊆ p.nodes := (nodes_sublist h).subset

theorem mem_nodes_of_mem_children {p c : Plan} (h : c ∈ p.children) : c ∈ p.nodes :=
  (nodes_sublist_of_mem_children h).subset c.self_mem_nodes

/-- A property of every node of a plan. -/
def All (P : Plan → Prop) (p : Plan) : Prop := ∀ n ∈ p.nodes, P n

section All

variable {P Q : Plan → Prop} {id : Nat} {input left right p : Plan}

@[simp] theorem all_scan {relation : Text} {fields : List Field} :
    (scan id relation fields).All P ↔ P (scan id relation fields) := by
  simp [All, nodes]

@[simp] theorem all_filter {predicate : Expr} :
    (filter id input predicate).All P ↔ P (filter id input predicate) ∧ input.All P := by
  simp [All, nodes]

@[simp] theorem all_project {outputs : List Output} :
    (project id input outputs).All P ↔ P (project id input outputs) ∧ input.All P := by
  simp [All, nodes]

@[simp] theorem all_foreign {kind : ForeignKind} {children : List Plan} :
    (foreign id kind children).All P ↔
      P (foreign id kind children) ∧ ∀ c ∈ children, c.All P := by
  simp only [All, nodes, nodesAll_eq, List.forall_mem_cons, List.mem_flatMap]
  grind

@[simp] theorem all_join {kind : JoinKind} {condition : Option Expr} :
    (join id kind left right condition).All P ↔
      P (join id kind left right condition) ∧ left.All P ∧ right.All P := by
  simp [All, nodes, or_imp, forall_and]

theorem all_iff : p.All P ↔ P p ∧ ∀ c ∈ p.children, c.All P := by
  cases p <;> simp [children]

theorem All.self (h : p.All P) : P p := h p p.self_mem_nodes

theorem All.of_mem {n : Plan} (h : p.All P) (hn : n ∈ p.nodes) : n.All P :=
  fun _ hx => h _ (nodes_subset hn hx)

theorem All.child {c : Plan} (h : p.All P) (hc : c ∈ p.children) : c.All P :=
  h.of_mem (mem_nodes_of_mem_children hc)

theorem All.imp (h : p.All P) (hPQ : ∀ n, P n → Q n) : p.All Q := fun n hn => hPQ n (h n hn)

end All

/-! ## Well-formed plans -/

/-- Every node passed its check. -/
def Checked (p : Plan) : Prop := p.All fun n => n.check = .ok ()

/-- Every identity was drawn before the supply reached `next`. -/
def IdsBelow (next : Nat) (p : Plan) : Prop := p.All fun n => n.id < next

/-- No expression of a foreign kind occurs. -/
def KnownExprs (p : Plan) : Prop := p.All fun n => ∀ e ∈ n.exprs, e.isKnown

/-- No integer in a plan is too long to be written if there is none in any expression of a node. -/
theorem isWritable_iff {p : Plan} :
    p.isWritable ↔ p.All fun n => ∀ e ∈ n.exprs, e.isWritable := by
  induction p with
  | scan => simp [isWritable, exprs]
  | filter _ _ _ ih => simp [isWritable, exprs, ih, and_comm]
  | project _ _ outputs ih =>
    rw [all_project, ← ih, isWritable, exprs, List.forall_mem_map]
    simp [and_comm]
  | join _ _ _ _ condition ihl ihr =>
    cases condition <;> simp [isWritable, exprs, ihl, ihr, and_comm]
  | foreign _ _ _ ih => simpa [isWritable, exprs] using forall₂_congr ih

theorem hasWritableLabel_of_isWritable {p : Plan} (h : p.isWritable) : p.hasWritableLabel := by
  cases p <;> simp_all [isWritable, hasWritableLabel]

/-- No node of a foreign kind occurs. -/
def KnownNodes (p : Plan) : Prop :=
  p.All fun n => ∀ id kind children, n ≠ foreign id kind children

/-- Foreign nodes can be built anew over children that have the columns of those that they have. -/
def Rebuilds (p : Plan) : Prop :=
  p.All fun n => ∀ id kind children, n = foreign id kind children →
    kind.rebuild (children.map schema) = .ok ()

theorem KnownNodes.rebuilds {p : Plan} (h : p.KnownNodes) : p.Rebuilds :=
  fun n hn id kind children heq => absurd heq (h n hn id kind children)

/-- A plan that building has made, with the supply now at `next`. -/
structure Built (next : Nat) (p : Plan) : Prop where
  checked : p.Checked
  ids : p.IdsBelow next

theorem Checked.predicate {id : Nat} {input : Plan} {predicate : Expr}
    (h : (filter id input predicate).Checked) :
    predicate.type = .boolean ∧ predicate.FitsIn input.schema :=
  checkFilter_eq_ok_iff.1 (all_filter.1 h).1

theorem Checked.outputs {id : Nat} {input : Plan} {outputs : List Output}
    (h : (project id input outputs).Checked) :
    outputs ≠ [] ∧ ∀ o ∈ outputs, o.expr.FitsIn input.schema :=
  checkProject_eq_ok_iff.1 (all_project.1 h).1

theorem Checked.condition {id : Nat} {kind : JoinKind} {left right : Plan} {condition : Expr}
    (h : (join id kind left right (some condition)).Checked) :
    condition.type = .boolean ∧ condition.FitsIn (left.schema ++ right.schema) :=
  (checkJoin_some_eq_ok_iff kind).1 (all_join.1 h).1

theorem IdsBelow.mono {next next' : Nat} {p : Plan} (h : p.IdsBelow next) (hle : next ≤ next') :
    p.IdsBelow next' :=
  h.imp fun _ hn => Nat.lt_of_lt_of_le hn hle

theorem Built.mono {next next' : Nat} {p : Plan} (h : p.Built next) (hle : next ≤ next') :
    p.Built next' :=
  ⟨h.checked, h.ids.mono hle⟩

theorem Built.of_mem {next : Nat} {p n : Plan} (h : p.Built next) (hn : n ∈ p.nodes) :
    n.Built next :=
  ⟨h.checked.of_mem hn, h.ids.of_mem hn⟩

theorem Built.child {next : Nat} {p c : Plan} (h : p.Built next) (hc : c ∈ p.children) :
    c.Built next :=
  h.of_mem (mem_nodes_of_mem_children hc)

end Plan

/-! ## What building establishes -/

section Build

variable {next next' : Nat} {input left right p : Plan}

theorem built_node {make : Nat → Plan} (h : Build.node make next = .ok (p, next'))
    (hid : (make next).id = next) (hchildren : ∀ c ∈ (make next).children, c.Built next) :
    p.Built next' := by
  obtain ⟨hcheck, rfl, rfl⟩ := Build.node_eq_ok h
  refine ⟨Plan.all_iff.2 ⟨hcheck, fun c hc => (hchildren c hc).checked⟩, Plan.all_iff.2 ⟨?_, ?_⟩⟩
  · rw [hid]
    exact Nat.lt_succ_self next
  · exact fun c hc => (hchildren c hc).ids.mono (Nat.le_succ next)

theorem built_scan {relation : Text} {fields : List Field}
    (h : Build.scan relation fields next = .ok (p, next')) : p.Built next' :=
  built_node h rfl fun _ hc => nomatch hc

theorem built_filter {predicate : Expr} (hinput : input.Built next)
    (h : Build.filter input predicate next = .ok (p, next')) : p.Built next' :=
  built_node h rfl (List.forall_mem_singleton.2 hinput)

theorem built_project {outputs : List Output} (hinput : input.Built next)
    (h : Build.project input outputs next = .ok (p, next')) : p.Built next' :=
  built_node h rfl (List.forall_mem_singleton.2 hinput)

theorem built_join {kind : JoinKind} {condition : Option Expr} (hleft : left.Built next)
    (hright : right.Built next)
    (h : Build.join kind left right condition next = .ok (p, next')) : p.Built next' :=
  built_node h rfl (by simp [Plan.children, hleft, hright])

theorem built_foreign {kind : ForeignKind} {children : List Plan}
    (hchildren : ∀ c ∈ children, c.Built next)
    (h : Build.foreign kind children next = .ok (p, next')) : p.Built next' :=
  built_node h rfl hchildren

end Build

/-! ## An example -/

/-- The open orders that have a line: a semi join over a projection over a filter. -/
def openOrders : Plan :=
  .join 4 .semi
    (.project 2
      (.filter 1 (.scan 0 "orders" [⟨"status", .varchar, false⟩, ⟨"id", .integer, false⟩])
        (.bin .eq (.col ⟨0, .varchar, false, some "status"⟩) (.lit ⟨0, .str "open", .varchar⟩)))
      [⟨.col ⟨1, .integer, false, some "id"⟩, "id"⟩])
    (.scan 3 "lines" [⟨"order", .integer, true⟩])
    (some (.bin .eq (.col ⟨0, .integer, false, some "id"⟩) (.col ⟨1, .integer, true, none⟩)))

theorem openOrders_built : openOrders.Built 5 where
  checked := by
    simp only [openOrders, Plan.Checked, Plan.all_join, Plan.all_project, Plan.all_filter,
      Plan.all_scan]
    exact ⟨rfl, ⟨rfl, rfl, rfl⟩, rfl⟩
  ids := by simp [openOrders, Plan.IdsBelow, Plan.id]

theorem openOrders_knownExprs : openOrders.KnownExprs := by
  simp [openOrders, Plan.KnownExprs, Plan.exprs, Expr.isKnown]

theorem openOrders_knownNodes : openOrders.KnownNodes := by
  simp [openOrders, Plan.KnownNodes]

end Semijoin
