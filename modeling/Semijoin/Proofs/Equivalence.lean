import Semijoin.Proofs.Run
import Semijoin.Proofs.Semantics

/-!
# Rewriting keeps the rows

A semi or anti join drops left rows one by one. So it does not matter whether rows are dropped
before or after a filter, nor whether they are dropped before or after they are projected, as long
as the condition reads what the projection would have computed. Hence a firing keeps the rows of a
plan, their order and their multiplicities, and so does a run of the optimizer.
-/

namespace Semijoin

variable {V : Type} {I : Interpretation V}

/-! ## Joins that filter -/

/-- Whether a semi or anti join with the given right rows keeps a left row. -/
def Interpretation.keeps (I : Interpretation V) (kind : JoinKind) (condition : Option Expr)
    (right : List (List V)) (l : List V) : Bool :=
  right.any (I.joins condition l) == decide (kind = .semi)

theorem eval_join_of_isFiltering {kind : JoinKind} (hkind : kind.isFiltering) (id : Nat)
    (left right : Plan) (condition : Option Expr) :
    (Plan.join id kind left right condition).eval I =
      (left.eval I).filter (I.keeps kind condition (right.eval I)) := by
  cases kind with
  | inner => contradiction
  | semi | anti =>
    rw [Plan.eval]
    refine List.filter_congr fun l _ => ?_
    simp [Interpretation.keeps]

section Below

variable {input right : Plan} {outputs : List Output} {condition condition' : Expr}
  {row : List V}

/-- The moved condition reads from a row what the condition reads from its projection. -/
theorem eval_below? {fields : List Field} {r : List V}
    (hbelow : below? input outputs condition = some condition') (hknown : condition.isKnown)
    (hfits : condition.FitsIn (outputs.map Output.field ++ fields))
    (houtputs : ∀ o ∈ outputs, o.expr.isKnown ∧ o.expr.FitsIn input.schema)
    (hrow : row.length = input.schema.length) :
    condition'.eval I (row ++ r) =
      condition.eval I (outputs.map (fun o => o.expr.eval I row) ++ r) := by
  rw [Expr.eval_congr (Expr.unnamed_mapColumns? hbelow)]
  refine Expr.eval_bind hknown fun c hc => ?_
  rcases (hfits c hc).output_or_le with ⟨o, ho, -⟩ | hle
  · obtain ⟨ho_known, ho_fits⟩ := houtputs o (mem_of_atPosition? ho)
    have hat : atPosition? (outputs.map fun o => o.expr.eval I row) c.index =
        some (o.expr.eval I row) := by
      obtain ⟨hi, ho⟩ := atPosition?_eq_some_iff.1 ho
      exact atPosition?_eq_some_iff.2 ⟨hi, by simp [ho]⟩
    rw [replacement_of_eq_some ho, Expr.eval_append ho_known ho_fits hrow, Expr.eval,
      atPosition?_append_of_eq_some hat, Option.getD_some]
  · have hshift : atPosition? (row ++ r) (c.index + (row.length - _)) =
        atPosition? (outputs.map (fun o => o.expr.eval I row) ++ r) c.index :=
      atPosition?_append_shift (by simpa using hle)
    rw [List.length_map, hrow] at hshift
    rw [replacement_of_le hle, Expr.eval, Expr.eval, Column.shift, hshift]

end Below

/-! ## Firings -/

section Transpose

variable {kind : JoinKind} {input right : Plan} {outputs : List Output}
  {predicate condition condition' : Expr}

/-- A semi or anti join over a projection drops the rows that it drops below with the moved
condition. -/
theorem eval_belowProject {id pid id₁ id₂ : Nat} (hkind : kind.isFiltering)
    (hbelow : below? input outputs condition = some condition')
    (hp : (Plan.join id kind (.project pid input outputs) right (some condition)).Evaluable I) :
    (Plan.project id₂ (.join id₁ kind input right (some condition')) outputs).eval I =
      (Plan.join id kind (.project pid input outputs) right (some condition)).eval I := by
  have hproject : (Plan.project pid input outputs).Evaluable I := hp.child (by simp [Plan.children])
  have hinput : input.Evaluable I := hproject.child (by simp [Plan.children])
  have hknown : condition.isKnown := hp.exprs.self condition (by simp [Plan.exprs])
  have houtputs : ∀ o ∈ outputs, o.expr.isKnown ∧ o.expr.FitsIn input.schema := fun o ho =>
    ⟨hproject.exprs.self o.expr (List.mem_map_of_mem ho), hproject.checked.outputs.2 o ho⟩
  have hkeeps : ∀ row ∈ input.eval I, I.keeps kind (some condition') (right.eval I) row =
      I.keeps kind (some condition) (right.eval I) (outputs.map fun o => o.expr.eval I row) := by
    intro row hrow
    have hjoins : I.joins (some condition') row =
        I.joins (some condition) (outputs.map fun o => o.expr.eval I row) := by
      funext r
      exact congrArg I.isTrue
        (eval_below? hbelow hknown hp.checked.condition.2 houtputs
          (hinput.length_of_mem_eval hrow))
    rw [Interpretation.keeps, Interpretation.keeps, hjoins]
  rw [eval_join_of_isFiltering hkind, Plan.eval, Plan.eval, eval_join_of_isFiltering hkind,
    List.filter_map, List.filter_congr hkeeps]
  rfl

theorem eval_belowFilter {id fid id₁ id₂ : Nat} {condition : Option Expr}
    (hkind : kind.isFiltering) :
    (Plan.filter id₂ (.join id₁ kind input right condition) predicate).eval I =
      (Plan.join id kind (.filter fid input predicate) right condition).eval I := by
  rw [eval_join_of_isFiltering hkind, Plan.eval, Plan.eval, eval_join_of_isFiltering hkind,
    List.filter_filter, List.filter_filter]
  simp only [Bool.and_comm]

end Transpose

theorem Interpretation.ofLeaves_fits : Plan.OfLeaves fun n => ∀ id relation fields,
    n = .scan id relation fields → ∀ row ∈ I.relation relation, row.length = fields.length := by
  constructor <;> simp

theorem Rule.Fires.eval {rule : Rule} {next : Nat} {p q : Plan} (h : rule.Fires next p q)
    (hp : p.Evaluable I) : q.eval I = p.eval I := by
  cases h with
  | project hkind hbelow => exact eval_belowProject hkind hbelow hp
  | filter hkind => exact eval_belowFilter hkind
  | @filterBelowProject _ pid fid id₁ id₂ id₃ kind input right outputs predicate _ c hkind hbelow =>
    have hproject : (Plan.project id₃ (.join id₁ kind (.filter fid input predicate) right (some c))
        outputs).eval I = _ := eval_belowProject hkind hbelow hp
    rw [← hproject, Plan.eval, eval_belowFilter hkind, ← Plan.eval]

namespace Rewrites

variable {rules : List Rule} {next n : Nat} {p q : Plan}

theorem evaluable (h : Rewrites rules next n p q) (hp : p.Evaluable I) : q.Evaluable I where
  checked := h.checked hp.checked
  exprs := h.knownExprs hp.checked hp.exprs
  nodes := h.knownNodes hp.nodes
  fits := h.all Interpretation.ofLeaves_fits hp.fits

/-- Any number of firings anywhere in a plan keeps its rows. -/
theorem eval (h : Rewrites rules next n p q) (hp : p.Evaluable I) : q.eval I = p.eval I := by
  induction h with
  | refl => rfl
  | fires _ h => exact h.eval hp
  | trans h _ ih ih' => rw [ih' (h.evaluable hp), ih hp]
  | filter _ _ _ ih | project _ _ _ ih =>
    have hinput := ih (hp.child (by simp [Plan.children]))
    rw [Plan.eval, hinput, Plan.eval]
  | foreign => exact absurd rfl (hp.nodes.self _ _ _)
  | @join _ _ _ _ kind _ _ _ _ _ _ _ _ _ ih ih' =>
    have hleft := ih (hp.child (by simp [Plan.children]))
    have hright := ih' (hp.child (by simp [Plan.children]))
    cases kind <;> rw [Plan.eval, hleft, hright, Plan.eval]

end Rewrites

/-! ## Runs -/

/-- Optimizing a plan keeps its rows, whatever relations, literals and operators mean. A run fails
only because of a message that shows an integer too long to be written. -/
theorem optimizeWith_eval (I : Interpretation V) {p : Plan} {s : RunState} (hp : p.Built s.next)
    (hexprs : p.KnownExprs) (hnodes : p.KnownNodes) (hfits : I.Fits p) {o : Optimizer}
    (hrules : o.rules ⊆ shippedRules) (bound : Int) (order : MatchOrder) :
    (o.optimizeWith bound order p).EnsuresUnless (fun e => e = .tooLong ∧ o.CanFail bound p e) s
      fun q _ => q.eval I = p.eval I := by
  refine ((o.ensuresUnless_optimizeWith hrules hp bound order).mono fun e he => ?_).imp ?_
  · exact ⟨he.eq_tooLong hp.checked hexprs hnodes.rebuilds, he⟩
  · rintro q s' ⟨counts, hprogress, -⟩
    exact hprogress.rewrites.eval ⟨hp.checked, hexprs, hnodes, hfits⟩

/-- Three orders, two of them open, and lines for the first two. -/
def shop : Interpretation (Option Text) where
  null := none
  isTrue v := v = some "TRUE"
  relation name :=
    if name = "orders" then
      [[some "open", some "1"], [some "closed", some "2"], [some "open", some "3"]]
    else [[some "1"], [some "2"]]
  literal v _ := match v with
    | .str t => some t
    | _ => none
  binary op a b := if op = .eq ∧ a = b ∧ a ≠ none then some "TRUE" else none
  unary _ _ := none
  foreignExpr _ _ := none
  foreignNode _ _ := []

theorem shop_fits : shop.Fits openOrders := by
  have horders : ∀ row ∈ shop.relation "orders", row.length = 2 := by decide
  have hlines : ∀ row ∈ shop.relation "lines", row.length = 1 := by decide
  simp only [Interpretation.Fits, openOrders, Plan.all_join, Plan.all_project, Plan.all_filter,
    Plan.all_scan]
  simp only [Plan.scan.injEq, reduceCtorEq, false_imp_iff, implies_true, true_and]
  refine ⟨?_, ?_⟩
  · rintro _ _ _ ⟨-, rfl, rfl⟩
    exact horders
  · rintro _ _ _ ⟨-, rfl, rfl⟩
    exact hlines

theorem openOrders_eval :
    (({ rules := shippedRules } : Optimizer).optimizeWith 3 .topDown openOrders).Ensures ⟨5, []⟩
      fun q _ => q.eval shop = [[some ("1" : Text)]] :=
  (optimizeWith_eval shop (s := ⟨5, []⟩) (o := { rules := shippedRules }) openOrders_built
    openOrders_knownExprs openOrders_knownNodes shop_fits (List.Subset.refl _) 3 .topDown).ensures
    fun e he => openOrders_not_canFail _ e he.2

end Semijoin
