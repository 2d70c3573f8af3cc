import Mathlib.Data.List.Forall2
import Semijoin.Proofs.Run

/-!
# The attempts of a walk

A walk recurses into nodes that a rule has just built. It comes to an end all the same, because a
replacement has as many nodes as what it replaces. To see which nodes a walk goes to, it is run with
an edit that keeps a record of its attempts; without the record it is the walk of the optimizer.
Going up, the nodes attempted are those of the plan, children first, each over the results for its
children. Going down, they turn into the nodes of the result, parents first. So there is one attempt
for each node, and those that fired are what the walk counts.
-/

namespace Semijoin

/-! ## Nodes in order -/

namespace Plan

mutual

/-- All nodes of a plan, children before their parents. -/
def postorder : Plan → List Plan
  | scan id relation fields => [scan id relation fields]
  | filter id input predicate => input.postorder ++ [filter id input predicate]
  | project id input outputs => input.postorder ++ [project id input outputs]
  | join id kind left right condition =>
    left.postorder ++ right.postorder ++ [join id kind left right condition]
  | foreign id kind children => postorders children ++ [foreign id kind children]

def postorders : List Plan → List Plan
  | [] => []
  | p :: ps => p.postorder ++ postorders ps

end

@[simp] theorem postorders_eq (ps : List Plan) : postorders ps = ps.flatMap postorder := by
  induction ps with
  | nil => rfl
  | cons p ps ih => rw [postorders, ih, List.flatMap_cons]

/-- Whether a plan is the same node, though perhaps with another identity and other children. -/
def SameNode (p q : Plan) : Prop := ∃ id children, q = p.atop id children

theorem postorder_eq (p : Plan) : p.postorder = p.children.flatMap postorder ++ [p] := by
  cases p <;> simp [postorder, children]

theorem length_nodes (p : Plan) : p.nodes.length = p.size := by
  induction p using induction_children with
  | h p ih =>
    rw [nodes_eq, size_eq, List.length_cons, List.length_flatMap, List.map_congr_left ih]

theorem length_postorder (p : Plan) : p.postorder.length = p.size := by
  induction p using induction_children with
  | h p ih =>
    rw [postorder_eq, size_eq, List.length_append, List.length_flatMap, List.map_congr_left ih,
      List.length_singleton]

end Plan

/-! ## Sizes -/

section Sizes

variable {rules : List Rule} {rule : Rule} {next n : Nat} {p q : Plan}

theorem Rule.Fires.size (h : rule.Fires next p q) : q.size = p.size := by
  cases h <;> simp only [Plan.size] <;> omega

theorem Rewrites.size (h : Rewrites rules next n p q) : q.size = p.size := by
  induction h with
  | refl => rfl
  | fires _ h => exact h.size
  | trans _ _ ih ih' => exact ih'.trans ih
  | filter _ _ _ ih | project _ _ _ ih => simp only [Plan.size, ih]
  | foreign _ _ _ ih =>
    simp only [Plan.size, Plan.sizes_eq, List.map_append, List.map_cons, ih]
  | join _ _ _ _ ih ih' => simp only [Plan.size, ih, ih']

end Sizes

/-! ## Attempts -/

/-- A node that a rule was tried at, and the replacement if it fired. -/
structure Attempt where
  node : Plan
  replacement : Option Plan

namespace Attempt

/-- What the walk goes on with. -/
def outcome (a : Attempt) : Plan := a.replacement.getD a.node

def fired (a : Attempt) : Bool := a.replacement.isSome

/-- Whether the attempt ended as the rule wants it: without a replacement if the rule does not match
the node, with a firing if it does. -/
def Genuine (rule : Rule) (a : Attempt) : Prop :=
  match a.replacement with
  | none => rule.match? a.node = none
  | some q => ∃ next, rule.Fires next a.node q

end Attempt

/-- Attempts with a rule, `n` of which fired. -/
structure Attempts (rule : Rule) (n : Nat) (attempts : List Attempt) : Prop where
  genuine : ∀ a ∈ attempts, a.Genuine rule
  fired : attempts.countP Attempt.fired = n

namespace Attempts

variable {rule : Rule} {m n : Nat} {as bs : List Attempt}

theorem nil (rule : Rule) : Attempts rule 0 [] := ⟨by simp, rfl⟩

theorem append (h : Attempts rule m as) (h' : Attempts rule n bs) :
    Attempts rule (m + n) (as ++ bs) where
  genuine a ha := (List.mem_append.mp ha).elim (h.genuine a) (h'.genuine a)
  fired := by rw [List.countP_append, h.fired, h'.fired]

theorem missed {p : Plan} (h : rule.match? p = none) : Attempts rule 0 [⟨p, none⟩] :=
  ⟨List.forall_mem_singleton.mpr h, rfl⟩

theorem hit {p q : Plan} {next : Nat} (h : rule.Fires next p q) : Attempts rule 1 [⟨p, some q⟩] :=
  ⟨List.forall_mem_singleton.mpr ⟨next, h⟩, rfl⟩

end Attempts

namespace MatchOrder

/-- There is one attempt for each node. Going up, the attempts are made at the nodes of the plans,
each after those below it; going down, they leave the nodes of the results, each before those below
it. -/
def Covers (order : MatchOrder) (plans results : List Plan) (attempts : List Attempt) : Prop :=
  match order with
  | bottomUp =>
    List.Forall₂ (fun n a => n.SameNode a.node) (plans.flatMap Plan.postorder) attempts
  | topDown =>
    List.Forall₂ (fun n a => a.outcome.SameNode n) (results.flatMap Plan.nodes) attempts

variable {order : MatchOrder} {ps ps' qs qs' : List Plan} {as bs : List Attempt} {a : Attempt}
  {p q : Plan}

namespace Covers

theorem nil (order : MatchOrder) : order.Covers [] [] [] := by
  cases order <;> exact List.Forall₂.nil

theorem append (h : order.Covers ps qs as) (h' : order.Covers ps' qs' bs) :
    order.Covers (ps ++ ps') (qs ++ qs') (as ++ bs) := by
  cases order <;> rw [Covers, List.flatMap_append] <;> exact List.rel_append h h'

theorem snoc (h : bottomUp.Covers p.children qs as) (ha : p.SameNode a.node) :
    bottomUp.Covers [p] [q] (as ++ [a]) := by
  rw [Covers, List.flatMap_singleton, Plan.postorder_eq]
  exact List.rel_append h (.cons ha .nil)

theorem cons (ha : a.outcome.SameNode q) (h : topDown.Covers ps q.children as) :
    topDown.Covers [p] [q] (a :: as) := by
  rw [Covers, List.flatMap_singleton, Plan.nodes_eq]
  exact .cons ha h

theorem length_eq (h : order.Covers [p] [q] as) (hsize : q.size = p.size) :
    as.length = p.size := by
  cases order with
  | bottomUp => rw [← h.length_eq, List.flatMap_singleton, Plan.length_postorder]
  | topDown => rw [← h.length_eq, List.flatMap_singleton, Plan.length_nodes, hsize]

end Covers

end MatchOrder

/-! ## Computations with a record -/

/-- A computation of the optimizer that keeps a record of attempts. -/
abbrev Recorded := StateT (List Attempt) Run

namespace Recorded

open Run (tryRule visitAll visitChildren bottomUp topDown walk)

/-- Tries a rule and records the attempt. -/
def attempt (rule : Rule) : Run.Edit Recorded := fun p => do
  let r ← tryRule rule p
  modify (· ++ [⟨p, r.map Subtype.val⟩])
  return r

/-! ## Leaving the record out -/

section Erasure

variable {α β : Type}

/-- Whatever was recorded before, the one computation is the other one but for its record. -/
def Erases (x : Recorded α) (y : Run α) : Prop := ∀ tried, Prod.fst <$> x.run tried = y

theorem erases_pure (a : α) : Erases (pure a) (pure a) := fun tried => by
  rw [StateT.run_pure, map_pure]

theorem erases_lift (y : Run α) : Erases (liftM y) y := fun tried => by
  have hlift : (liftM y : Recorded α).run tried = (·, tried) <$> y := StateT.run_lift y tried
  rw [hlift, Functor.map_map]
  exact id_map' y

theorem Erases.bind {x : Recorded α} {y : Run α} {f : α → Recorded β} {g : α → Run β}
    (h : x.Erases y) (hf : ∀ a, (f a).Erases (g a)) : (x >>= f).Erases (y >>= g) := by
  intro tried
  rw [StateT.run_bind, map_bind, ← h tried, bind_map_left]
  exact bind_congr fun r => hf r.1 r.2

theorem attempt_erases (rule : Rule) (p : Plan) : (attempt rule p).Erases (tryRule rule p) := by
  intro tried
  have hattempt : (attempt rule p).run tried =
      (fun r => (r, tried ++ [⟨p, r.map Subtype.val⟩])) <$> tryRule rule p := by
    simp [attempt]
  rw [hattempt, Functor.map_map]
  exact id_map' _

theorem visitAll_erases {size : Nat} {visit : (c : Plan) → c.size < size → Recorded (Plan × Nat)}
    {visit' : (c : Plan) → c.size < size → Run (Plan × Nat)}
    (h : ∀ c hc, (visit c hc).Erases (visit' c hc)) (ps : List Plan)
    (hps : ∀ c ∈ ps, c.size < size) : (visitAll visit ps hps).Erases (visitAll visit' ps hps) := by
  induction ps with
  | nil => exact erases_pure _
  | cons c cs ih =>
    exact (h c _).bind fun r => (ih _).bind fun rs => erases_pure _

theorem visitChildren_erases {p : Plan}
    {visit : (c : Plan) → c.size < p.size → Recorded (Plan × Nat)}
    {visit' : (c : Plan) → c.size < p.size → Run (Plan × Nat)}
    (h : ∀ c hc, (visit c hc).Erases (visit' c hc)) :
    (visitChildren p visit).Erases (visitChildren p visit') :=
  (visitAll_erases h _ _).bind fun _ => (erases_lift _).bind fun _ => erases_pure _

theorem bottomUp_erases (rule : Rule) (p : Plan) :
    (bottomUp (attempt rule) p).Erases (bottomUp (tryRule rule) p) := by
  induction hsize : p.size using Nat.strongRecOn generalizing p with
  | ind size ih =>
    subst hsize
    rw [bottomUp, bottomUp]
    refine (visitChildren_erases fun c hc => ih c.size hc c rfl).bind fun r => ?_
    refine (attempt_erases rule r.1).bind fun q => ?_
    cases q <;> exact erases_pure _

theorem topDown_erases (rule : Rule) (p : Plan) :
    (topDown (attempt rule) p).Erases (topDown (tryRule rule) p) := by
  induction hsize : p.size using Nat.strongRecOn generalizing p with
  | ind size ih =>
    subst hsize
    rw [topDown, topDown]
    refine (attempt_erases rule p).bind fun q => ?_
    obtain _ | ⟨q, hq⟩ := q
    · exact visitChildren_erases fun c hc => ih c.size hc c rfl
    · have hvisit := visitChildren_erases fun c (hc : c.size < q.size) => ih c.size (hq ▸ hc) c rfl
      exact hvisit.bind fun r => erases_pure _

/-- But for its record, a recorded walk is the walk. -/
theorem walk_erases (order : MatchOrder) (rule : Rule) (p : Plan) :
    (walk (attempt rule) order p).Erases (walk (tryRule rule) order p) := by
  cases order with
  | bottomUp => exact bottomUp_erases rule p
  | topDown => exact topDown_erases rule p

end Erasure

/-! ## What is recorded -/

section Ensures

variable {α β : Type} {s : RunState} {reason reason' : RunError → Prop}

/-- The computation returns, and its result, the attempts that it adds to the record and the state
that it leaves satisfy a condition, or it fails, and there is a reason for the error. -/
def EnsuresUnless (reason : RunError → Prop) (x : Recorded α) (s : RunState)
    (post : α → List Attempt → RunState → Prop) : Prop :=
  ∀ tried, (x.run tried).EnsuresUnless reason s fun r s' =>
    ∃ attempts, r.2 = tried ++ attempts ∧ post r.1 attempts s'

theorem EnsuresUnless.imp {x : Recorded α} {P Q : α → List Attempt → RunState → Prop}
    (h : x.EnsuresUnless reason s P) (hPQ : ∀ a as s', P a as s' → Q a as s') :
    x.EnsuresUnless reason s Q :=
  fun tried => (h tried).imp fun r s' ⟨as, has, ha⟩ => ⟨as, has, hPQ r.1 as s' ha⟩

theorem EnsuresUnless.mono {x : Recorded α} {P : α → List Attempt → RunState → Prop}
    (h : x.EnsuresUnless reason s P) (hle : ∀ e, reason e → reason' e) :
    x.EnsuresUnless reason' s P :=
  fun tried => (h tried).mono hle

theorem ensuresUnless_pure {a : α} {Q : α → List Attempt → RunState → Prop} (h : Q a [] s) :
    EnsuresUnless reason (pure a) s Q :=
  fun tried => (Run.ensures_pure ⟨[], (List.append_nil tried).symm, h⟩).unless

theorem ensuresUnless_lift {y : Run α} {P : α → RunState → Prop} (h : y.EnsuresUnless reason s P) :
    EnsuresUnless reason (liftM y) s fun a as s' => as = [] ∧ P a s' := by
  intro tried
  refine h.bind fun a s' ha => (Run.ensures_pure ?_).unless
  exact ⟨[], (List.append_nil tried).symm, rfl, ha⟩

theorem EnsuresUnless.bind {x : Recorded α} {f : α → Recorded β}
    {P : α → List Attempt → RunState → Prop} {Q : β → List Attempt → RunState → Prop}
    (h : x.EnsuresUnless reason s P)
    (hf : ∀ a as s', P a as s' → (f a).EnsuresUnless reason s' fun b bs s'' => Q b (as ++ bs) s'') :
    (x >>= f).EnsuresUnless reason s Q := by
  intro tried
  rw [StateT.run_bind]
  refine (h tried).bind ?_
  rintro ⟨a, _⟩ s' ⟨as, rfl, ha⟩
  refine (hf a as s' ha (tried ++ as)).imp ?_
  rintro r s'' ⟨bs, hbs, hb⟩
  exact ⟨as ++ bs, by rw [hbs, List.append_assoc], hb⟩

theorem ensuresUnless_record (a : Attempt) :
    (modify (· ++ [a]) : Recorded PUnit).EnsuresUnless reason s fun _ as s' =>
      as = [a] ∧ s' = s :=
  fun _ => (Run.ensures_pure ⟨[a], rfl, rfl, rfl⟩).unless

end Ensures

section Walks

variable {order : MatchOrder} {rule : Rule} {s : RunState} {p : Plan}

/-- What walks with a rule come to. -/
structure Tried (order : MatchOrder) (rule : Rule) (ps qs : List Plan) (n : Nat)
    (as : List Attempt) : Prop where
  attempts : Attempts rule n as
  covers : order.Covers ps qs as

theorem attempt_ensuresUnless (hrule : rule ∈ shippedRules) (hp : p.Built s.next) :
    (attempt rule p).EnsuresUnless (p.CanFail [rule]) s fun r as s' =>
      match r with
      | none => as = [⟨p, none⟩] ∧ Attempts rule 0 as ∧ s' = s
      | some q => as = [⟨p, some q.1⟩] ∧ Attempts rule 1 as ∧
          Run.Progress [rule] s 1 [] p q s' := by
  have htry := Run.tryRule_ensuresUnless hrule (List.mem_singleton_self rule) hp
  refine (ensuresUnless_lift htry).bind ?_
  rintro r _ t ⟨rfl, hr⟩
  refine (ensuresUnless_record _).bind ?_
  rintro _ _ s' ⟨rfl, rfl⟩
  refine ensuresUnless_pure ?_
  cases r with
  | none => exact ⟨rfl, .missed hr.2, hr.1⟩
  | some q => exact ⟨rfl, .hit hr.1, hr.2⟩

/-- What a recorded walk is to come to. -/
def Walks (order : MatchOrder) (rule : Rule) (p : Plan) (x : Recorded (Plan × Nat)) (s : RunState) :
    Prop :=
  x.EnsuresUnless (p.CanFail [rule]) s fun r as s' =>
    Run.Progress [rule] s r.2 [] p r.1 s' ∧ Tried order rule [p] [r.1] r.2 as

theorem visitAll_ensuresUnless {size : Nat}
    {visit : (c : Plan) → c.size < size → Recorded (Plan × Nat)}
    (hvisit : ∀ (c : Plan) (hc : c.size < size) (t : RunState), c.Built t.next →
      Walks order rule c (visit c hc) t) {ps : List Plan} (hps : ∀ c ∈ ps, c.Built s.next)
    (hsize : ∀ c ∈ ps, c.size < size) :
    (visitAll visit ps hsize).EnsuresUnless (fun e => ∃ c ∈ ps, c.CanFail [rule] e) s
      fun r as s' => Run.ProgressAll [rule] s r.2 ps r.1 s' ∧ Tried order rule ps r.1 r.2 as := by
  induction ps generalizing s with
  | nil => exact ensuresUnless_pure ⟨.nil s, .nil rule, .nil order⟩
  | cons c cs ih =>
    obtain ⟨hc, hcs⟩ := List.forall_mem_cons.mp hps
    refine ((hvisit c _ s hc).mono fun e he => ⟨c, List.mem_cons_self, he⟩).bind ?_
    rintro ⟨c', m⟩ as t ⟨hprogress, htried⟩
    refine ((ih (fun d hd => (hcs d hd).mono hprogress.next_le) _).mono ?_).bind ?_
    · rintro e ⟨d, hd, he⟩
      exact ⟨d, List.mem_cons_of_mem c hd, he⟩
    rintro ⟨cs', n⟩ bs u ⟨hprogressAll, htriedAll⟩
    refine ensuresUnless_pure ⟨.cons hprogress hprogressAll, ?_, ?_⟩
    · rw [List.append_nil]
      exact htried.attempts.append htriedAll.attempts
    · rw [List.append_nil]
      exact htried.covers.append htriedAll.covers

theorem visitChildren_ensuresUnless (hp : p.Built s.next)
    {visit : (c : Plan) → c.size < p.size → Recorded (Plan × Nat)}
    (hvisit : ∀ (c : Plan) (hc : c.size < p.size) (t : RunState), c.Built t.next →
      Walks order rule c (visit c hc) t) :
    (visitChildren p visit).EnsuresUnless (p.CanFail [rule]) s fun r as s' =>
      Run.Progress [rule] s r.2 [] p r.1 s' ∧
        Tried order rule p.children r.1.children r.2 as ∧ p.SameNode r.1 := by
  refine ((visitAll_ensuresUnless hvisit (fun c hc => hp.child hc) _).mono ?_).bind ?_
  · rintro e ⟨c, hc, he⟩
    exact .of_child hc he
  rintro ⟨children, fired⟩ as t ⟨hprogress, htried⟩
  refine (ensuresUnless_lift (Run.exchange_ensuresUnless hp hprogress)).bind ?_
  rintro _ _ s' ⟨rfl, hq, id, rfl⟩
  refine ensuresUnless_pure ⟨hq, ?_, id, children, rfl⟩
  rw [Plan.children_atop id hprogress.rewrites.schemas.length_eq]
  simpa using htried

theorem bottomUp_walks (hrule : rule ∈ shippedRules) (hp : p.Built s.next) :
    Walks .bottomUp rule p (bottomUp (attempt rule) p) s := by
  induction hsize : p.size using Nat.strongRecOn generalizing p s with
  | ind size ih =>
    subst hsize
    rw [bottomUp]
    refine (visitChildren_ensuresUnless hp fun c hc t hb => ih c.size hc hb rfl).bind ?_
    rintro ⟨q, fired⟩ as t ⟨hq, htried, hnode⟩
    refine ((attempt_ensuresUnless hrule (hq.built hp)).mono fun _ =>
      .of_rewrites hq.rewrites).bind ?_
    rintro (_ | r) bs t' ⟨rfl, hattempt, h⟩
    · subst h
      refine ensuresUnless_pure ⟨hq, ?_, ?_⟩
      · simpa using htried.attempts.append hattempt
      · simpa using htried.covers.snoc hnode
    · refine ensuresUnless_pure ⟨hq.trans h, ?_, ?_⟩
      · simpa using htried.attempts.append hattempt
      · simpa using htried.covers.snoc hnode

theorem topDown_walks (hrule : rule ∈ shippedRules) (hp : p.Built s.next) :
    Walks .topDown rule p (topDown (attempt rule) p) s := by
  induction hsize : p.size using Nat.strongRecOn generalizing p s with
  | ind size ih =>
    subst hsize
    rw [topDown]
    refine (attempt_ensuresUnless hrule hp).bind ?_
    rintro (_ | ⟨q, hqp⟩) bs t ⟨rfl, hattempt, h⟩
    · subst h
      refine (visitChildren_ensuresUnless hp fun c hc t hb => ih c.size hc hb rfl).imp ?_
      rintro ⟨r, fired⟩ as s' ⟨hr, htried, hnode⟩
      refine ⟨hr, ?_, .cons hnode htried.covers⟩
      simpa using hattempt.append htried.attempts
    · -- The replacement is as large as the plan, so the hypothesis covers its children, too.
      refine ((visitChildren_ensuresUnless (h.built hp) fun c hc t hb =>
        ih c.size (hqp ▸ hc) hb rfl).mono fun _ => .of_rewrites h.rewrites).bind ?_
      rintro ⟨r, fired⟩ as s' ⟨hr, htried, hnode⟩
      refine ensuresUnless_pure ⟨?_, ?_, ?_⟩
      · rw [Nat.add_comm]
        exact h.trans hr
      · simpa [Nat.add_comm] using hattempt.append htried.attempts
      · rw [List.append_nil]
        exact .cons hnode htried.covers

theorem walk_walks (order : MatchOrder) (hrule : rule ∈ shippedRules) (hp : p.Built s.next) :
    Walks order rule p (walk (attempt rule) order p) s := by
  cases order with
  | bottomUp => exact bottomUp_walks hrule hp
  | topDown => exact topDown_walks hrule hp

/-- A replacement has as many nodes as what it replaces, and a walk in either order comes to an end.
Unless it fails, it tries the rule once at each node, whether it has just built it or not. It counts
how often the rule fired; the count is zero exactly if it returns the plan itself. -/
theorem walk_tries_once (hrule : rule ∈ shippedRules) (hp : p.Built s.next) :
    (∀ q q' next next', rule.fire q next = .ok (some q', next') → q'.size = q.size) ∧
    ∀ order : MatchOrder,
      (∀ tried, Prod.fst <$> (walk (attempt rule) order p).run tried =
        walk (tryRule rule) order p) ∧
      ((∃ q n attempts s',
        ((walk (attempt rule) order p).run []).run.run s = (.ok ((q, n), attempts), s') ∧
        (walk (tryRule rule) order p).run.run s = (.ok (q, n), s') ∧
        q.size = p.size ∧ attempts.length = p.size ∧ order.Covers [p] [q] attempts ∧
        (∀ a ∈ attempts, a.Genuine rule) ∧ n = attempts.countP Attempt.fired ∧
        (n = 0 ↔ q.id = p.id) ∧ (n = 0 → q = p)) ∨
      ∃ e, (walk (tryRule rule) order p).Fails s e ∧ p.CanFail [rule] e) := by
  refine ⟨fun _ _ _ _ => Rule.size_fire, fun order => ⟨walk_erases order rule p, ?_⟩⟩
  have herased := walk_erases order rule p []
  rcases walk_walks order hrule hp [] with
    ⟨⟨⟨q, n⟩, attempts⟩, s', hrun, _, rfl, hprogress, htried⟩ | ⟨e, ⟨s', hfails⟩, he⟩
  · have hsize : q.size = p.size := hprogress.rewrites.size
    have hsame : n = 0 → q = p := hprogress.rewrites.eq_of_zero
    refine .inl ⟨q, n, attempts, s', hrun, ?_, hsize, htried.covers.length_eq hsize,
      htried.covers, htried.attempts.genuine, htried.attempts.fired.symm,
      ⟨fun hn => by rw [hsame hn], fun hid => ?_⟩, hsame⟩
    · rw [← herased, ExceptT.run_map, StateT.run_map, hrun]
      rfl
    · by_contra hn
      have hnew : s.next ≤ q.id := hprogress.rewrites.next_le_id (Nat.pos_of_ne_zero hn)
      have hold : p.id < s.next := hp.ids.self
      omega
  · refine .inr ⟨e, ⟨s', ?_⟩, he⟩
    rw [← herased, ExceptT.run_map, StateT.run_map, hfails]
    rfl

theorem openOrders_tried_once :
    filterTranspose ∈ shippedRules ∧ openOrders.Built 5 ∧
      ∃ q n attempts s',
        (walk (tryRule filterTranspose) .topDown openOrders).run.run ⟨5, []⟩ = (.ok (q, n), s') ∧
        q.size = 5 ∧ attempts.length = 5 ∧ MatchOrder.topDown.Covers [openOrders] [q] attempts ∧
        n = attempts.countP Attempt.fired := by
  have hrule : filterTranspose ∈ shippedRules := by simp [shippedRules]
  obtain ⟨-, horder⟩ := walk_tries_once (s := ⟨5, []⟩) hrule openOrders_built
  rcases (horder .topDown).2 with
    ⟨q, n, attempts, s', -, hrun, hsize, hlength, hcovers, -, hfired, -⟩ | ⟨e, -, he⟩
  · exact ⟨hrule, openOrders_built, q, n, attempts, s', hrun, hsize, hlength, hcovers, hfired⟩
  · exact absurd (.rules he) (openOrders_not_canFail { rules := [filterTranspose] } e)

end Walks

end Recorded

end Semijoin
