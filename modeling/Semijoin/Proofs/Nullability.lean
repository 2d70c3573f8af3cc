import Mathlib.Data.List.Forall2
import Semijoin.Proofs.Semantics
import Semijoin.Proofs.Transpose

/-!
# Nullability of columns

A column that a schema declares to be without nulls is without nulls: if the relations keep to the
schemas of their scans, so do the rows of every plan over them to the schema of the plan. The
analysis behind it, `Expr.mayBeNull`, goes by the form of an expression, so operators may make a
null only out of another one, division and modulo excepted. An expression of a foreign kind may
yield anything.
-/

namespace Semijoin

variable {V : Type} {I : Interpretation V}

namespace Interpretation

variable (I)

/-- A row has one value for each field, and null only where the field allows it. -/
def Respects (fields : List Field) (row : List V) : Prop :=
  List.Forall₂ (fun field v => v = I.null → field.nullable) fields row

/-- The rows of every relation respect the fields of the scans of it. -/
def RespectsScans (p : Plan) : Prop :=
  p.All fun n => ∀ id relation fields, n = .scan id relation fields →
    ∀ row ∈ I.relation relation, I.Respects fields row

/-- Nulls come from null literals, from operands that are null, from division and from modulo. Tests
for null never yield one. -/
structure Strict : Prop where
  literal : ∀ v type, I.literal v type = I.null → v = .null
  binary : ∀ op a b, op ≠ .divide → op ≠ .modulo → a ≠ I.null → b ≠ I.null →
    I.binary op a b ≠ I.null
  unary : ∀ op a, a ≠ I.null → I.unary op a ≠ I.null
  isNull : ∀ a, I.unary .isNull a ≠ I.null
  isNotNull : ∀ a, I.unary .isNotNull a ≠ I.null

end Interpretation

/-! ## Expressions -/

theorem BinaryOperator.isPartial_iff {op : BinaryOperator} :
    op.isPartial ↔ op = .divide ∨ op = .modulo := by
  cases op <;> simp [isPartial]

section Expressions

variable {fields : List Field} {row : List V}

theorem Interpretation.Respects.atPosition? (h : I.Respects fields row) {i : Int} {field : Field}
    (hat : atPosition? fields i = some field) :
    ∃ v, Semijoin.atPosition? row i = some v ∧ (v = I.null → field.nullable) := by
  obtain ⟨hi, hfield⟩ := atPosition?_eq_some_iff.1 hat
  obtain ⟨hlt, rfl⟩ := List.getElem?_eq_some_iff.1 hfield
  obtain ⟨hlength, hall⟩ := List.forall₂_iff_get.1 h
  have hlt' : i.toNat < row.length := hlength ▸ hlt
  exact ⟨row[i.toNat], atPosition?_eq_some_iff.2 ⟨hi, List.getElem?_eq_getElem hlt'⟩,
    hall i.toNat hlt hlt'⟩

/-- An expression that is deemed not to yield null does not, over a row of the schema it fits. -/
theorem Expr.eval_ne_null (hI : I.Strict) {e : Expr} (hfits : e.FitsIn fields)
    (hrow : I.Respects fields row) (h : ¬ e.mayBeNull) : e.eval I row ≠ I.null := by
  induction e with
  | col c =>
    obtain ⟨field, hat, -, hnullable⟩ := hfits c (by simp [columns])
    obtain ⟨v, hv, hnull⟩ := hrow.atPosition? hat
    rw [eval, hv, Option.getD_some]
    exact fun hv => h (hnullable (hnull hv))
  | lit l =>
    intro hnull
    have hvalue : l.value = .null := hI.literal l.value l.type hnull
    simp [mayBeNull, Literal.isNull, hvalue] at h
  | bin op left right ihl ihr =>
    simp only [mayBeNull, Bool.or_eq_true, BinaryOperator.isPartial_iff, not_or] at h
    obtain ⟨⟨⟨hdivide, hmodulo⟩, hleft⟩, hright⟩ := h
    have hl := ihl (fun c hc => hfits c (by simp [columns, hc])) hleft
    have hr := ihr (fun c hc => hfits c (by simp [columns, hc])) hright
    exact hI.binary op _ _ hdivide hmodulo hl hr
  | un op operand ih =>
    cases op with
    | isNull => exact hI.isNull _
    | isNotNull => exact hI.isNotNull _
    | not | negate =>
      have hoperand : ¬ operand.mayBeNull := by simpa [mayBeNull, UnaryOperator.isNullTest] using h
      exact hI.unary _ _ (ih hfits hoperand)
  | foreign => simp [mayBeNull] at h

end Expressions

/-! ## Plans -/

/-- The rows of a plan respect its schema. -/
theorem Plan.eval_respects (hI : I.Strict) {p : Plan} (hp : p.Checked) (hnodes : p.KnownNodes)
    (hscans : I.RespectsScans p) : ∀ row ∈ p.eval I, I.Respects p.schema row := by
  induction p with
  | scan id relation fields => exact hscans.self id relation fields rfl
  | filter id input predicate ih =>
    intro row hrow
    exact ih (all_filter.1 hp).2 (all_filter.1 hnodes).2 (all_filter.1 hscans).2 row
      (List.mem_filter.1 hrow).1
  | project id input outputs ih =>
    intro _ hrow
    obtain ⟨row, hinput, rfl⟩ := List.mem_map.1 hrow
    have hrespects := ih (all_project.1 hp).2 (all_project.1 hnodes).2 (all_project.1 hscans).2
      row hinput
    rw [schema, Interpretation.Respects, List.forall₂_map_left_iff, List.forall₂_map_right_iff,
      List.forall₂_same]
    intro o ho hnull
    by_contra hfield
    exact Expr.eval_ne_null hI (hp.outputs.2 o ho) hrespects hfield hnull
  | join id kind left right condition ihl ihr =>
    obtain ⟨-, hleft, hright⟩ := all_join.1 hp
    obtain ⟨-, hleftNodes, hrightNodes⟩ := all_join.1 hnodes
    obtain ⟨-, hleftScans, hrightScans⟩ := all_join.1 hscans
    have hl := ihl hleft hleftNodes hleftScans
    have hr := ihr hright hrightNodes hrightScans
    intro row hrow
    cases kind with
    | inner =>
      obtain ⟨l, hlmem, hlr⟩ := List.mem_flatMap.1 hrow
      obtain ⟨r, hrmem, rfl⟩ := List.mem_map.1 hlr
      exact List.rel_append (hl l hlmem) (hr r (List.mem_filter.1 hrmem).1)
    | semi | anti => exact hl row (List.mem_filter.1 hrow).1
  | foreign => exact absurd rfl (hnodes.self _ _ _)

/-- The filter of a match is a node of the plan that matches. -/
theorem FilterTranspose.exists_filter_of_match? {p : Plan} {m : Match} (h : match? p = some m) :
    ∃ f, m.filter = some f ∧ f.plan ∈ p.nodes ∧
      m.nullSensitive = (decide (m.join.kind = .anti) && f.predicate.mayBeNull) := by
  obtain ⟨id, kind, left, right, condition, project, f, -, rfl, hunwrap, rfl⟩ := match?_eq_some h
  refine ⟨f, rfl, ?_, rfl⟩
  have hself := f.plan.self_mem_nodes
  rcases unwrap?_eq_some hunwrap with ⟨-, rfl⟩ | ⟨pid, outputs, -, rfl⟩ <;>
    simp [Plan.nodes, hself]

/-- The rows of a plan respect its schema. Where a filter is moved past an anti join and the match
is not null sensitive, the predicate is not null on any row of the input of the filter. -/
theorem nulls_respect_schema (I : Interpretation V) (hI : I.Strict) {p : Plan} (hp : p.Checked)
    (hnodes : p.KnownNodes) (hscans : I.RespectsScans p) :
    (∀ row ∈ p.eval I, I.Respects p.schema row) ∧
    ∀ n ∈ p.nodes, ∀ m, filterTranspose.match? n = some m → m.join.kind = .anti →
      m.nullSensitive = false →
        ∃ f, m.filter = some f ∧ ∀ row ∈ f.input.eval I, f.predicate.eval I row ≠ I.null := by
  refine ⟨Plan.eval_respects hI hp hnodes hscans, ?_⟩
  intro n hn m hmatch hanti hsensitive
  obtain ⟨f, hfilter, hmem, hnull⟩ := FilterTranspose.exists_filter_of_match? hmatch
  have hmem : f.plan ∈ p.nodes := Plan.nodes_subset hn hmem
  have hchecked : f.plan.Checked := hp.of_mem hmem
  have hinput := Plan.eval_respects hI (Plan.all_filter.1 hchecked).2
    (Plan.all_filter.1 (hnodes.of_mem hmem)).2 (Plan.all_filter.1 (hscans.of_mem hmem)).2
  refine ⟨f, hfilter, fun row hrow => ?_⟩
  exact Expr.eval_ne_null hI hchecked.predicate.2 (hinput row hrow) (by simp_all)

/-! ## An example -/

/-- The open orders without a line, and whether they lack a discount. -/
def unlistedOrders : Plan :=
  .join 4 .anti
    (.project 2
      (.filter 1
        (.scan 0 "orders"
          [⟨"status", .varchar, false⟩, ⟨"id", .integer, false⟩, ⟨"discount", .integer, true⟩])
        (.bin .eq (.col ⟨0, .varchar, false, none⟩) (.lit ⟨0, .str "open", .varchar⟩)))
      [⟨.col ⟨1, .integer, false, none⟩, "id"⟩,
        ⟨.un .isNull (.col ⟨2, .integer, true, none⟩), "full"⟩])
    (.scan 3 "lines" [⟨"order", .integer, true⟩])
    (some (.bin .eq (.col ⟨0, .integer, false, none⟩) (.col ⟨2, .integer, true, none⟩)))

theorem unlistedOrders_checked : unlistedOrders.Checked := by
  simp only [unlistedOrders, Plan.Checked, Plan.all_join, Plan.all_project, Plan.all_filter,
    Plan.all_scan]
  exact ⟨rfl, ⟨rfl, rfl, rfl⟩, rfl⟩

/-- Three orders, two of them with a discount, and two lines, one of them without an order. -/
def stock : Interpretation (Option Text) where
  null := none
  isTrue v := v = some "TRUE"
  relation name :=
    if name = "orders" then
      [[some "open", some "1", some "5"], [some "closed", some "2", some "5"],
        [some "open", some "3", none]]
    else [[some "1"], [none]]
  literal v _ := match v with
    | .null => none
    | v => some v.plain
  binary op a b := match a, b with
    | some a, some b => if op.isPartial then none else some (if a = b then "TRUE" else "FALSE")
    | _, _ => none
  unary op a := match op with
    | .isNull => some (if a = none then "TRUE" else "FALSE")
    | .isNotNull => some (if a = none then "FALSE" else "TRUE")
    | .not | .negate => a
  foreignExpr _ _ := none
  foreignNode _ inputs := inputs.flatten

theorem stock_strict : stock.Strict where
  literal v _ h := by cases v <;> simp_all [stock]
  binary op a b hdivide hmodulo ha hb := by
    have hop : ¬ op.isPartial := by simp [BinaryOperator.isPartial_iff, hdivide, hmodulo]
    obtain ⟨a, rfl⟩ := Option.ne_none_iff_exists'.1 ha
    obtain ⟨b, rfl⟩ := Option.ne_none_iff_exists'.1 hb
    simp [stock, hop]
  unary op a ha := by cases op <;> simp_all [stock]
  isNull _ := by simp [stock]
  isNotNull _ := by simp [stock]

theorem stock_respectsScans : stock.RespectsScans unlistedOrders := by
  have hlines : stock.relation "lines" = [[some ("1" : Text)], [none]] := by decide
  simp only [Interpretation.RespectsScans, unlistedOrders, Plan.all_join, Plan.all_project,
    Plan.all_filter, Plan.all_scan, Plan.scan.injEq, reduceCtorEq, false_imp_iff, implies_true,
    true_and]
  refine ⟨?_, ?_⟩
  · rintro _ _ _ ⟨-, rfl, rfl⟩
    simp [stock, Interpretation.Respects]
  · rintro _ _ _ ⟨-, rfl, rfl⟩
    simp [hlines, Interpretation.Respects]

theorem unlistedOrders_respect_schema :
    unlistedOrders.eval stock = [[some ("3" : Text), some ("TRUE" : Text)]] ∧
    (∀ row ∈ unlistedOrders.eval stock, stock.Respects unlistedOrders.schema row) ∧
    ∃ m f, filterTranspose.match? unlistedOrders = some m ∧ m.filter = some f ∧
      ∀ row ∈ f.input.eval stock, f.predicate.eval stock row ≠ none := by
  have hnodes : unlistedOrders.KnownNodes := by simp [unlistedOrders, Plan.KnownNodes]
  obtain ⟨hrows, hfilter⟩ := nulls_respect_schema stock stock_strict unlistedOrders_checked hnodes
    stock_respectsScans
  obtain ⟨f, hf, hpredicate⟩ := hfilter _ (Plan.self_mem_nodes _) _ rfl rfl rfl
  exact ⟨by decide, hrows, _, f, rfl, hf, hpredicate⟩

end Semijoin
