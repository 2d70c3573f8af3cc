import Semijoin.Proofs.Built

/-!
# Evaluation of plans

What a plan means: the list of its rows, given the rows of every relation and a meaning for
literals, operators and whatever is of a foreign kind. Names of columns mean nothing, replacing
columns in an expression comes to reading another row, and rows are as wide as the schema says.
-/

namespace Semijoin

/-- A meaning for the parts that plans are made of, over a type of SQL values. -/
structure Interpretation (V : Type) where
  null : V
  isTrue : V → Bool
  relation : Text → List (List V)
  literal : Value → DataType → V
  binary : BinaryOperator → V → V → V
  unary : UnaryOperator → V → V
  foreignExpr : ForeignExpr → List V → V
  foreignNode : ForeignKind → List (List (List V)) → List (List V)

variable {V : Type}

/-- The value of an expression over a row. A reference that the row does not reach is null; no plan
that passed construction has one. -/
@[grind =] def Expr.eval (I : Interpretation V) (row : List V) : Expr → V
  | col c => (atPosition? row c.index).getD I.null
  | lit l => I.literal l.value l.type
  | bin op left right => I.binary op (left.eval I row) (right.eval I row)
  | un op operand => I.unary op (operand.eval I row)
  | foreign x => I.foreignExpr x row

namespace Interpretation

variable (I : Interpretation V)

/-- Whether a row makes an expression true. -/
def accepts (e : Expr) (row : List V) : Bool := I.isTrue (e.eval I row)

/-- Whether two rows are joined. Without a condition all are. -/
def joins (condition : Option Expr) (l r : List V) : Bool :=
  condition.all fun e => I.accepts e (l ++ r)

end Interpretation

mutual

/-- The rows of a plan. -/
@[grind =] def Plan.eval (I : Interpretation V) : Plan → List (List V)
  | scan _ relation _ => I.relation relation
  | filter _ input predicate => (input.eval I).filter (I.accepts predicate)
  | project _ input outputs =>
    (input.eval I).map fun row => outputs.map fun o => o.expr.eval I row
  | join _ .inner left right condition =>
    (left.eval I).flatMap fun l => ((right.eval I).filter (I.joins condition l)).map (l ++ ·)
  | join _ .semi left right condition =>
    (left.eval I).filter fun l => (right.eval I).any (I.joins condition l)
  | join _ .anti left right condition =>
    (left.eval I).filter fun l => !(right.eval I).any (I.joins condition l)
  | foreign _ kind children => I.foreignNode kind (evalAll I children)

/-- The rows of each of several plans. -/
def Plan.evalAll (I : Interpretation V) : List Plan → List (List (List V))
  | [] => []
  | p :: ps => p.eval I :: evalAll I ps

end

/-- Every relation has rows as wide as the scans of it. -/
def Interpretation.Fits (I : Interpretation V) (p : Plan) : Prop :=
  p.All fun n => ∀ id relation fields, n = .scan id relation fields →
    ∀ row ∈ I.relation relation, row.length = fields.length

variable {I : Interpretation V}

/-- A plan that evaluation makes sense of: it passed construction, knows no expressions and nodes of
foreign kinds, and its scans fit the relations. -/
structure Plan.Evaluable (I : Interpretation V) (p : Plan) : Prop where
  checked : p.Checked
  exprs : p.KnownExprs
  nodes : p.KnownNodes
  fits : I.Fits p

theorem Plan.Evaluable.of_mem {p n : Plan} (h : p.Evaluable I) (hn : n ∈ p.nodes) :
    n.Evaluable I :=
  ⟨h.checked.of_mem hn, h.exprs.of_mem hn, h.nodes.of_mem hn, h.fits.of_mem hn⟩

theorem Plan.Evaluable.child {p c : Plan} (h : p.Evaluable I) (hc : c ∈ p.children) :
    c.Evaluable I :=
  h.of_mem (mem_nodes_of_mem_children hc)

/-! ## Expressions -/

namespace Expr

variable {row row' more : List V} {e e' : Expr}

/-- Replacing columns comes to reading another row. -/
theorem eval_bind {f : Column → Expr} (hknown : e.isKnown)
    (h : ∀ c ∈ e.columns, (f c).eval I row = (col c).eval I row') :
    (e.bind f).eval I row = e.eval I row' := by
  induction e with
  | col c => exact h c (by simp [columns])
  | lit => rfl
  | bin op left right ihl ihr =>
    simp only [isKnown, Bool.and_eq_true] at hknown
    have hl := ihl hknown.1 fun c hc => h c (by simp [columns, hc])
    have hr := ihr hknown.2 fun c hc => h c (by simp [columns, hc])
    simp only [bind, eval, hl, hr]
  | un op operand ih => simp only [bind, eval, ih hknown h]
  | foreign => simp [isKnown] at hknown

theorem eval_unnamed (e : Expr) : e.unnamed.eval I row = e.eval I row := by
  induction e with
  | col | lit | foreign => rfl
  | bin op left right ihl ihr => simp only [unnamed_bin, eval, ihl, ihr]
  | un op operand ih => simp only [unnamed_un, eval, ih]

theorem eval_congr (h : e.unnamed = e'.unnamed) : e.eval I row = e'.eval I row := by
  rw [← eval_unnamed, h, eval_unnamed]

/-- An expression does not see what stands behind the columns it fits. -/
theorem eval_append {fields : List Field} (hknown : e.isKnown) (hfits : e.FitsIn fields)
    (hwidth : row.length = fields.length) : e.eval I (row ++ more) = e.eval I row := by
  induction e with
  | col c =>
    obtain ⟨field, hat, -⟩ := hfits c (by simp [columns])
    obtain ⟨hi, hfield⟩ := atPosition?_eq_some_iff.1 hat
    obtain ⟨hlt, -⟩ := List.getElem?_eq_some_iff.1 hfield
    simp [eval, atPosition?, hi, List.getElem?_append_left (hwidth ▸ hlt)]
  | lit => rfl
  | bin op left right ihl ihr =>
    simp only [isKnown, Bool.and_eq_true] at hknown
    have hl := ihl hknown.1 fun c hc => hfits c (by simp [columns, hc])
    have hr := ihr hknown.2 fun c hc => hfits c (by simp [columns, hc])
    simp only [eval, hl, hr]
  | un op operand ih => simp only [eval, ih hknown hfits]
  | foreign => simp [isKnown] at hknown

end Expr

/-! ## Rows -/

/-- Every row is as wide as the schema. -/
theorem Plan.Evaluable.length_of_mem_eval {p : Plan} (h : p.Evaluable I) {row : List V}
    (hrow : row ∈ p.eval I) : row.length = p.schema.length := by
  induction p generalizing row with
  | scan id relation fields => exact h.fits.self id relation fields rfl row hrow
  | filter id input predicate ih =>
    exact ih (h.child (by simp [children])) (List.mem_filter.1 hrow).1
  | project id input outputs =>
    obtain ⟨_, -, rfl⟩ := List.mem_map.1 hrow
    simp [schema]
  | join id kind left right condition ihl ihr =>
    have hleft : left.Evaluable I := h.child (by simp [children])
    have hright : right.Evaluable I := h.child (by simp [children])
    cases kind with
    | inner =>
      obtain ⟨l, hl, hlr⟩ := List.mem_flatMap.1 hrow
      obtain ⟨r, hr, rfl⟩ := List.mem_map.1 hlr
      have hll := ihl hleft hl
      have hrl := ihr hright (List.mem_filter.1 hr).1
      simp [schema, JoinKind.isFiltering, hll, hrl]
    | semi | anti => exact ihl hleft (List.mem_filter.1 hrow).1
  | foreign => exact absurd rfl (h.nodes.self _ _ _)

end Semijoin
