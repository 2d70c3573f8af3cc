import Mathlib.Data.Option.Basic
import Semijoin.Proofs.Run

/-!
# Order of operators

What a run leaves in its place. Without filters and projections a plan is a `Frame`, and no rewrite
changes that: the same joins, foreign nodes and scans stay where they are. Between them the nodes of
a plan form chains, one from the root and one from each input that is not the first one of its node,
such as the right input of a join, each down the first inputs to a node that has none. Along a chain
rewriting lets semi and anti joins sink, and only past filters and projections: `Sunk` says what
this comes to.
-/

namespace Semijoin

/-- The condition of a join, as far as rewriting has to keep it. -/
def JoinKind.keptCondition (kind : JoinKind) (condition : Option Expr) : Option Expr :=
  if kind.isFiltering then none else condition

/-- A plan without its filters and projections. Scans keep their identities. -/
inductive Frame where
  | scan (id : Nat) (relation : Text) (fields : List Field)
  | join (kind : JoinKind) (condition : Option Expr) (left right : Frame)
  | foreign (kind : ForeignKind) (inputs : List Frame)

/-- A node of a chain, without its inputs. -/
inductive Mark where
  | scan (id : Nat) (relation : Text) (fields : List Field)
  | filter (predicate : Expr)
  | project (outputs : List Output)
  | join (kind : JoinKind) (condition : Option Expr)
  | foreign (kind : ForeignKind)

namespace Mark

/-- Whether a node is a semi or anti join. -/
def isFiltering : Mark → Bool
  | join kind _ => kind.isFiltering
  | scan .. | filter .. | project .. | foreign .. => false

/-- Whether a node is a filter or a projection. -/
def isOperator : Mark → Bool
  | filter .. | project .. => true
  | scan .. | join .. | foreign .. => false

theorem isFiltering_eq_false {m : Mark} (h : m.isOperator) : m.isFiltering = false := by
  cases m <;> simp_all [isOperator, isFiltering]

end Mark

namespace Plan

mutual

/-- Erases all filters and projections. -/
def frame : Plan → Frame
  | scan id relation fields => .scan id relation fields
  | filter _ input _ | project _ input _ => input.frame
  | join _ kind left right condition =>
    .join kind (kind.keptCondition condition) left.frame right.frame
  | foreign _ kind children => .foreign kind (frames children)

def frames : List Plan → List Frame
  | [] => []
  | p :: ps => p.frame :: frames ps

end

@[simp] theorem frames_eq (ps : List Plan) : frames ps = ps.map frame := by
  induction ps with
  | nil => rfl
  | cons p ps ih => rw [frames, ih, List.map_cons]

mutual

/-- The nodes from the root on down, by the left, the only or the first input. -/
def chain : Plan → List Mark
  | scan id relation fields => [.scan id relation fields]
  | filter _ input predicate => .filter predicate :: input.chain
  | project _ input outputs => .project outputs :: input.chain
  | join _ kind left _ condition => .join kind (kind.keptCondition condition) :: left.chain
  | foreign _ kind children => .foreign kind :: firstChain children

def firstChain : List Plan → List Mark
  | [] => []
  | p :: _ => p.chain

end

mutual

/-- The inputs beside the chain, such as the right inputs of joins, from the topmost node on. -/
def branches : Plan → List Plan
  | scan .. => []
  | filter _ input _ | project _ input _ => input.branches
  | join _ _ left right _ => right :: left.branches
  | foreign _ _ children => laterBranches children

def laterBranches : List Plan → List Plan
  | [] => []
  | p :: ps => ps ++ p.branches

end

/-- The chain at the end of a path. Each number on the path says at which of the inputs beside the
chain to go on. -/
def chain? : List Nat → Plan → Option (List Mark)
  | [], p => some p.chain
  | k :: path, p => p.branches[k]?.bind (chain? path)

end Plan

/-! ## Joins that sink -/

/-- The second chain is the first one with semi and anti joins moved down past filters and
projections. -/
structure Sunk (c d : List Mark) : Prop where
  /-- All other nodes are the same in the same order. -/
  others : d.filter (!·.isFiltering) = c.filter (!·.isFiltering)
  /-- Semi and anti joins pass neither each other nor anything but filters and projections. -/
  barriers : d.filter (!·.isOperator) = c.filter (!·.isOperator)
  /-- No part from the top holds more of them than before. -/
  down : ∀ n, (d.take n).countP Mark.isFiltering ≤ (c.take n).countP Mark.isFiltering

namespace Sunk

variable {c d e : List Mark}

theorem refl (c : List Mark) : Sunk c c := ⟨rfl, rfl, fun _ => Nat.le_refl _⟩

theorem trans (h : Sunk c d) (h' : Sunk d e) : Sunk c e :=
  ⟨h'.others.trans h.others, h'.barriers.trans h.barriers,
    fun n => Nat.le_trans (h'.down n) (h.down n)⟩

theorem cons (h : Sunk c d) (m : Mark) : Sunk (m :: c) (m :: d) where
  others := by simp only [List.filter_cons, h.others]
  barriers := by simp only [List.filter_cons, h.barriers]
  down n := by
    cases n with
    | zero => simp
    | succ n =>
      simp only [List.take_succ_cons, List.countP_cons]
      exact Nat.add_le_add_right (h.down n) _

/-- A join passes an operator. -/
theorem pass {kind : JoinKind} {condition : Option Expr} {m : Mark} (hkind : kind.isFiltering)
    (hm : m.isOperator) (c : List Mark) :
    Sunk (.join kind condition :: m :: c) (m :: .join kind condition :: c) := by
  have hsinks : (Mark.join kind condition).isFiltering = true := hkind
  have hstays : m.isFiltering = false := Mark.isFiltering_eq_false hm
  have hjoin : (Mark.join kind condition).isOperator = false := rfl
  refine ⟨?_, ?_, fun n => ?_⟩
  · simp [hsinks, hstays]
  · simp [hjoin, hm]
  · -- Only the prefix of one node tells the two chains apart.
    match n with
    | 0 => simp
    | 1 => simp [hstays]
    | n + 2 => simp [List.countP_cons, hstays]

end Sunk

namespace Plan

/-- Wherever a path leads in the two plans, the chain there is the same up to sinking joins. -/
def ChainsSunk (p q : Plan) : Prop := ∀ path, Option.Rel Sunk (p.chain? path) (q.chain? path)

/-- Wherever a path leads from the inputs beside two chains, the chain there is the same up to
sinking joins. -/
def BranchesSunk (ps qs : List Plan) : Prop :=
  ∀ (k : Nat) (path : List Nat),
    Option.Rel Sunk (ps[k]?.bind (chain? path)) (qs[k]?.bind (chain? path))

section BranchesSunk

variable {p q : Plan} {ps ps' qs qs' : List Plan}

theorem chainsSunk_iff :
    p.ChainsSunk q ↔ Sunk p.chain q.chain ∧ BranchesSunk p.branches q.branches := by
  constructor
  · refine fun h => ⟨?_, fun k path => h (k :: path)⟩
    cases h [] with
    | some hchain => exact hchain
  · rintro ⟨hchain, hbranches⟩ (_ | ⟨k, path⟩)
    · exact .some hchain
    · exact hbranches k path

theorem ChainsSunk.refl (p : Plan) : p.ChainsSunk p := by
  intro path
  cases p.chain? path with
  | none => exact .none
  | some c => exact .some (.refl c)

theorem BranchesSunk.refl (ps : List Plan) : BranchesSunk ps ps := by
  intro k path
  cases ps[k]? with
  | none => exact .none
  | some p => exact ChainsSunk.refl p path

theorem BranchesSunk.cons (h : p.ChainsSunk q) (hs : BranchesSunk ps qs) :
    BranchesSunk (p :: ps) (q :: qs) := by
  rintro (_ | k) path
  · exact h path
  · exact hs k path

theorem BranchesSunk.append (h : BranchesSunk ps qs) (hlength : ps.length = qs.length)
    (h' : BranchesSunk ps' qs') : BranchesSunk (ps ++ ps') (qs ++ qs') := by
  intro k path
  by_cases hk : k < ps.length
  · rw [List.getElem?_append_left hk, List.getElem?_append_left (hlength ▸ hk)]
    exact h k path
  · have hle : ps.length ≤ k := Nat.le_of_not_lt hk
    rw [List.getElem?_append_right hle, List.getElem?_append_right (hlength ▸ hle), hlength]
    exact h' (k - qs.length) path

end BranchesSunk

namespace ChainsSunk

variable {p q r input input' left left' right right' : Plan}

theorem trans (h : p.ChainsSunk q) (h' : q.ChainsSunk r) : p.ChainsSunk r := by
  intro path
  have hpq := h path
  have hqr := h' path
  generalize p.chain? path = c, q.chain? path = d, r.chain? path = e at hpq hqr
  cases hpq with
  | none => exact hqr
  | some hcd =>
    cases hqr with
    | some hde => exact .some (hcd.trans hde)

/-- Nodes with one input have the branches of that input. -/
theorem of_branches (h : input.ChainsSunk input') (hp : p.branches = input.branches)
    (hq : q.branches = input'.branches) (hchain : Sunk p.chain q.chain) : p.ChainsSunk q := by
  refine chainsSunk_iff.mpr ⟨hchain, ?_⟩
  rw [hp, hq]
  exact (chainsSunk_iff.mp h).2

theorem chain (h : p.ChainsSunk q) : Sunk p.chain q.chain := (chainsSunk_iff.mp h).1

theorem join {id id' : Nat} {kind : JoinKind} {condition : Option Expr}
    (hleft : left.ChainsSunk left') (hright : right.ChainsSunk right') :
    (join id kind left right condition).ChainsSunk (join id' kind left' right' condition) :=
  chainsSunk_iff.mpr ⟨hleft.chain.cons _, .cons hright (chainsSunk_iff.mp hleft).2⟩

/-- The first child of a foreign node goes on with the chain, any other one is beside it. -/
theorem foreign {id id' : Nat} {kind : ForeignKind} {before behind : List Plan}
    (h : input.ChainsSunk input') :
    (foreign id kind (before ++ input :: behind)).ChainsSunk
      (foreign id' kind (before ++ input' :: behind)) := by
  refine chainsSunk_iff.mpr ?_
  cases before with
  | nil =>
    obtain ⟨hchain, hbranches⟩ := chainsSunk_iff.mp h
    exact ⟨hchain.cons _, (BranchesSunk.refl behind).append rfl hbranches⟩
  | cons first more =>
    refine ⟨.refl _, .append ?_ (by simp) (.refl first.branches)⟩
    exact .append (.refl more) rfl (.cons h (.refl behind))

end ChainsSunk

end Plan

/-! ## Rewrites -/

section Rewrites

variable {rules : List Rule} {rule : Rule} {next n : Nat} {p q : Plan}

theorem Rule.Fires.frame (h : rule.Fires next p q) : q.frame = p.frame := by
  cases h with
  | project hkind | filter hkind | filterBelowProject hkind =>
    simp [Plan.frame, JoinKind.keptCondition, hkind]

theorem Rule.Fires.chainsSunk (h : rule.Fires next p q) : p.ChainsSunk q := by
  cases h with
  | project hkind =>
    refine .of_branches (.refl _) rfl rfl ?_
    simp only [Plan.chain, JoinKind.keptCondition, hkind, if_true]
    exact .pass hkind rfl _
  | filter hkind =>
    refine .of_branches (.refl _) rfl rfl ?_
    simp only [Plan.chain, JoinKind.keptCondition, hkind, if_true]
    exact .pass hkind rfl _
  | filterBelowProject hkind =>
    refine .of_branches (.refl _) rfl rfl ?_
    simp only [Plan.chain, JoinKind.keptCondition, hkind, if_true]
    exact (Sunk.pass hkind rfl _).trans ((Sunk.pass hkind rfl _).cons _)

namespace Rewrites

theorem frame (h : Rewrites rules next n p q) : q.frame = p.frame := by
  induction h with
  | refl => rfl
  | fires _ h => exact h.frame
  | trans _ _ ih ih' => rw [ih', ih]
  | filter _ _ _ ih | project _ _ _ ih => exact ih
  | foreign _ _ _ ih => simp only [Plan.frame, Plan.frames_eq, List.map_append, List.map_cons, ih]
  | join _ _ _ _ ih ih' => simp only [Plan.frame, ih, ih']

theorem chainsSunk (h : Rewrites rules next n p q) : p.ChainsSunk q := by
  induction h with
  | refl => exact .refl _
  | fires _ h => exact h.chainsSunk
  | trans _ _ ih ih' => exact ih.trans ih'
  | filter _ _ _ ih | project _ _ _ ih => exact ih.of_branches rfl rfl (ih.chain.cons _)
  | foreign _ _ _ ih => exact .foreign ih
  | join _ _ _ _ ih ih' => exact .join ih ih'

end Rewrites

end Rewrites

/-! ## Runs -/

/-- A run that returns changes a plan by letting semi and anti joins sink along its chains, and by
nothing else: without filters and projections it is the same as before. -/
theorem optimizeWith_chains {p : Plan} {s : RunState} (hp : p.Built s.next) {o : Optimizer}
    (hrules : o.rules ⊆ shippedRules) (bound : Int) (order : MatchOrder) :
    (o.optimizeWith bound order p).EnsuresUnless (o.CanFail bound p) s fun q _ =>
      q.frame = p.frame ∧ p.ChainsSunk q := by
  refine (o.ensuresUnless_optimizeWith hrules hp bound order).imp ?_
  rintro q s' ⟨counts, hprogress, -⟩
  exact ⟨hprogress.rewrites.frame, hprogress.rewrites.chainsSunk⟩

/-- A kind of node with one child, whose columns it hands on. -/
def cacheKind : ForeignKind where
  name := "Cache"
  schema schemas := schemas.head?.getD []
  rebuild schemas := if schemas.length = 1 then .ok () else .error ⟨"ValueError"⟩

/-- The open orders that have a line, kept for later. -/
def cachedOrders : Plan := .foreign 5 cacheKind [openOrders]

theorem cachedOrders_chains :
    (({ rules := shippedRules } : Optimizer).optimizeWith 3 .topDown cachedOrders).Ensures ⟨6, []⟩
      fun q _ => q.frame = cachedOrders.frame ∧ cachedOrders.ChainsSunk q := by
  have hbuilt : cachedOrders.Built 6 :=
    built_foreign (List.forall_mem_singleton.mpr openOrders_built) rfl
  have hknown : cachedOrders.KnownExprs := by
    simp [cachedOrders, Plan.KnownExprs, Plan.exprs, openOrders, Expr.isKnown]
  have hrebuilds : cachedOrders.Rebuilds := by
    simp [cachedOrders, Plan.Rebuilds, openOrders, cacheKind]
  have hrun := optimizeWith_chains (s := ⟨6, []⟩) (o := { rules := shippedRules }) hbuilt
    (List.Subset.refl _) 3 .topDown
  exact hrun.ensures fun e => Optimizer.not_canFail hbuilt.checked hknown hrebuilds
    (by decide +kernel) (by decide +kernel)

end Semijoin
