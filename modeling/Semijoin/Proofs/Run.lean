import Mathlib.Algebra.GroupWithZero.Nat
import Semijoin.Proofs.Exchange
import Semijoin.Proofs.Failure

/-!
# Runs of the optimizer

`Run.Ensures` says that a computation of the optimizer returns, and what holds of its result and of
the state it leaves; `Run.EnsuresUnless` leaves a way out, an error for which there is a reason.
With them, this module follows a run from the inside out: the attempt at one node, the visit of the
children, the two walks, a pass and the passes of a run. `Progress` is what all of them have in
common: the result comes from the plan by firings of the rules, the supply of identities stays
ahead, and nothing but debug entries is logged. `Plan.CanFail` has the reasons for errors.
-/

namespace Semijoin

namespace Logging

theorem Context.lookup_put (context : Context) (name : Text) (value : Value) :
    (context.put name value).lookup name = some value := by
  unfold put
  split
  · rename_i hany
    induction context with
    | nil => simp at hany
    | cons entry context ih =>
      obtain ⟨key, old⟩ := entry
      by_cases hkey : key = name
      · simp [hkey]
      · have hne : (name == key) = false := beq_false_of_ne (Ne.symm hkey)
        simp only [List.any_cons, hkey, decide_false, Bool.false_or] at hany
        simp only [List.map_cons, hkey, if_false, List.lookup_cons, hne]
        exact ih hany
  · rename_i hany
    simp only [List.any_eq_true, decide_eq_true_eq, not_exists, not_and] at hany
    have hnone : context.lookup name = none :=
      List.lookup_eq_none_iff.2 fun entry hentry => bne_iff_ne.2 (Ne.symm (hany entry hentry))
    rw [List.lookup_append, hnone]
    simp

/-- The number of rewrites in a context, if it is that of the report of a pass. -/
def Context.rewrites? (context : Context) : Option Nat :=
  match context.lookup ("rewrites" : Text) with
  | some (.int n) => some n.toNat
  | _ => none

theorem Context.rewrites?_merge (context : Context) (own : Text × Value) (n : Nat) :
    (context.merge [own, ("rewrites", .int n)]).rewrites? = some n := by
  simp only [merge, List.foldl_cons, List.foldl_nil, rewrites?, lookup_put]
  rfl

/-- The number of rewrites that an entry reports, if it is the report of a pass. -/
def Entry.rewrites? (entry : Entry) : Option Nat := entry.context.bind Context.rewrites?

end Logging

namespace Run

variable {α β : Type} {s t : RunState}

/-- The computation returns, and its result and the state it leaves satisfy a condition. -/
def Ensures (x : Run α) (s : RunState) (post : α → RunState → Prop) : Prop :=
  ∃ a s', x.run.run s = (.ok a, s') ∧ post a s'

theorem run_bind_of_ok {x : Run α} {a : α} {s' : RunState} (hx : x.run.run s = (.ok a, s'))
    (f : α → Run β) : (x >>= f).run.run s = (f a).run.run s' := by
  rw [ExceptT.run_bind, StateT.run_bind, hx]
  rfl

theorem Ensures.imp {x : Run α} {P Q : α → RunState → Prop} (h : x.Ensures s P)
    (hPQ : ∀ a s', P a s' → Q a s') : x.Ensures s Q := by
  obtain ⟨a, s', hx, ha⟩ := h
  exact ⟨a, s', hx, hPQ a s' ha⟩

theorem Ensures.and {x : Run α} {P Q : α → RunState → Prop} (h : x.Ensures s P)
    (h' : x.Ensures s Q) : x.Ensures s fun a s' => P a s' ∧ Q a s' := by
  obtain ⟨a, s', hx, ha⟩ := h
  obtain ⟨b, t, hx', hb⟩ := h'
  obtain ⟨hab, rfl⟩ := Prod.mk.inj (hx.symm.trans hx')
  obtain rfl := Except.ok.inj hab
  exact ⟨a, s', hx, ha, hb⟩

theorem Ensures.bind {x : Run α} {f : α → Run β} {P : α → RunState → Prop}
    {Q : β → RunState → Prop} (h : x.Ensures s P)
    (hf : ∀ a s', P a s' → (f a).Ensures s' Q) : (x >>= f).Ensures s Q := by
  obtain ⟨a, s', hx, ha⟩ := h
  obtain ⟨b, s'', hfa, hb⟩ := hf a s' ha
  exact ⟨b, s'', (run_bind_of_ok hx f).trans hfa, hb⟩

theorem ensures_pure {a : α} {Q : α → RunState → Prop} (h : Q a s) :
    (pure a : Run α).Ensures s Q :=
  ⟨a, s, rfl, h⟩

theorem ensures_get : (get : Run RunState).Ensures s fun a s' => a = s ∧ s' = s :=
  ⟨s, s, rfl, rfl, rfl⟩

theorem ensures_modify {f : RunState → RunState} :
    (modify f : Run PUnit).Ensures s fun _ s' => s' = f s :=
  ⟨(), f s, rfl, rfl⟩

theorem ensures_write {entry : Logging.Entry} :
    (write entry).Ensures s fun _ s' => s' = { s with log := s.log ++ [entry] } :=
  ensures_modify

theorem ensures_written {text : Option α} {a : α} (h : text = some a) :
    (written text).Ensures s fun b s' => b = a ∧ s' = s := by
  subst h
  exact ensures_pure ⟨rfl, rfl⟩

/-! ## Runs that can fail -/

/-- The computation ends with an error. -/
def Fails (x : Run α) (s : RunState) (e : RunError) : Prop :=
  ∃ s', x.run.run s = (.error e, s')

theorem fails_throw (e : RunError) : (throw e : Run α).Fails s e := ⟨s, rfl⟩

theorem Fails.bind {x : Run α} {e : RunError} (h : x.Fails s e) (f : α → Run β) :
    (x >>= f).Fails s e := by
  obtain ⟨s', hx⟩ := h
  refine ⟨s', ?_⟩
  rw [ExceptT.run_bind, StateT.run_bind, hx]
  rfl

theorem Ensures.bind_fails {x : Run α} {f : α → Run β} {P : α → RunState → Prop} {e : RunError}
    (h : x.Ensures s P) (hf : ∀ a s', P a s' → (f a).Fails s' e) : (x >>= f).Fails s e := by
  obtain ⟨a, s', hx, ha⟩ := h
  obtain ⟨s'', hfa⟩ := hf a s' ha
  exact ⟨s'', (run_bind_of_ok hx f).trans hfa⟩

theorem Fails.not_ensures {x : Run α} {e : RunError} {P : α → RunState → Prop} (h : x.Fails s e) :
    ¬ x.Ensures s P := by
  rintro ⟨a, t, hreturns, -⟩
  obtain ⟨s', hfails⟩ := h
  cases hreturns.symm.trans hfails

/-- The computation returns as `Ensures` says, or it fails, and there is a reason for the error. -/
def EnsuresUnless (reason : RunError → Prop) (x : Run α) (s : RunState)
    (post : α → RunState → Prop) : Prop :=
  x.Ensures s post ∨ ∃ e, x.Fails s e ∧ reason e

section EnsuresUnless

variable {reason reason' : RunError → Prop} {x : Run α} {P Q : α → RunState → Prop}

theorem Ensures.unless (h : x.Ensures s P) : x.EnsuresUnless reason s P := .inl h

theorem ensuresUnless_throw {e : RunError} (h : reason e) :
    (throw e : Run α).EnsuresUnless reason s P :=
  .inr ⟨e, fails_throw e, h⟩

theorem EnsuresUnless.ensures (h : x.EnsuresUnless reason s P) (hfree : ∀ e, ¬ reason e) :
    x.Ensures s P :=
  h.resolve_right fun ⟨e, _, he⟩ => hfree e he

theorem EnsuresUnless.reason_of_fails {e : RunError} (h : x.EnsuresUnless reason s P)
    (hfails : x.Fails s e) : reason e := by
  rcases h with h | ⟨e', ⟨s', hx⟩, he'⟩
  · exact absurd h hfails.not_ensures
  · obtain ⟨t, hx'⟩ := hfails
    obtain ⟨herror, -⟩ := Prod.mk.inj (hx.symm.trans hx')
    exact Except.error.inj herror ▸ he'

theorem EnsuresUnless.imp (h : x.EnsuresUnless reason s P) (hPQ : ∀ a s', P a s' → Q a s') :
    x.EnsuresUnless reason s Q :=
  h.imp_left fun h => h.imp hPQ

theorem EnsuresUnless.mono (h : x.EnsuresUnless reason s P) (hle : ∀ e, reason e → reason' e) :
    x.EnsuresUnless reason' s P :=
  h.imp_right fun ⟨e, hfails, he⟩ => ⟨e, hfails, hle e he⟩

theorem EnsuresUnless.bind {f : α → Run β} {Q : β → RunState → Prop}
    (h : x.EnsuresUnless reason s P)
    (hf : ∀ a s', P a s' → (f a).EnsuresUnless reason s' Q) :
    (x >>= f).EnsuresUnless reason s Q := by
  rcases h with ⟨a, s', hx, ha⟩ | ⟨e, hfails, he⟩
  · rcases hf a s' ha with ⟨b, s'', hfa, hb⟩ | ⟨e, ⟨s'', hfa⟩, he⟩
    · exact .inl ⟨b, s'', (run_bind_of_ok hx f).trans hfa, hb⟩
    · exact .inr ⟨e, ⟨s'', (run_bind_of_ok hx f).trans hfa⟩, he⟩
  · exact .inr ⟨e, hfails.bind f, he⟩

/-- A computation that returns has no way out. -/
theorem Ensures.and_unless (h : x.Ensures s P) (h' : x.EnsuresUnless reason s Q) :
    x.Ensures s fun a s' => P a s' ∧ Q a s' := by
  rcases h' with h' | ⟨e, hfails, -⟩
  · exact h.and h'
  · exact absurd h hfails.not_ensures

/-- A part of a message can be written, or the computation fails. -/
theorem ensuresUnless_written {text : Option α} (h : text = none → reason .tooLong) :
    (written text).EnsuresUnless reason s fun a s' => text = some a ∧ s' = s := by
  cases text with
  | none => exact ensuresUnless_throw (h rfl)
  | some a => exact (ensures_pure ⟨rfl, rfl⟩).unless

end EnsuresUnless

/-! ## Progress -/

/-- The supply of identities moves on, and the log grows by debug entries, which report `counts`
rewrites pass by pass. -/
structure Advances (s : RunState) (counts : List Nat) (s' : RunState) : Prop where
  next_le : s.next ≤ s'.next
  log : ∃ entries, s'.log = s.log ++ entries ∧ (∀ e ∈ entries, e.level = .debug) ∧
    entries.filterMap Logging.Entry.rewrites? = counts

/-- What rewriting a plan comes to: `n` firings of the rules lead to the result, and no node is
built without one. -/
structure Progress (rules : List Rule) (s : RunState) (n : Nat) (counts : List Nat) (p q : Plan)
    (s' : RunState) : Prop extends Advances s counts s' where
  rewrites : Rewrites rules s.next n p q
  ids : q.IdsBelow s'.next
  next_eq : n = 0 → s'.next = s.next

namespace Advances

variable {s' s'' : RunState} {counts counts' : List Nat}

theorem refl (s : RunState) : Advances s [] s :=
  ⟨Nat.le_refl _, [], by simp, by simp, rfl⟩

theorem trans (h : Advances s counts s') (h' : Advances s' counts' s'') :
    Advances s (counts ++ counts') s'' := by
  obtain ⟨entries, hlog, hdebug, hcounts⟩ := h.log
  obtain ⟨entries', hlog', hdebug', hcounts'⟩ := h'.log
  refine ⟨Nat.le_trans h.next_le h'.next_le, entries ++ entries', ?_, ?_, ?_⟩
  · rw [hlog', hlog, List.append_assoc]
  · simpa [or_imp, forall_and] using ⟨hdebug, hdebug'⟩
  · rw [List.filterMap_append, hcounts, hcounts']

theorem draw (h : Advances s counts s') :
    Advances s counts { s' with next := s'.next + 1 } :=
  ⟨Nat.le_succ_of_le h.next_le, h.log⟩

end Advances

namespace Progress

variable {rules : List Rule} {s' s'' : RunState} {m n : Nat} {counts counts' : List Nat}
  {p q r : Plan}

theorem refl (hp : p.IdsBelow s.next) : Progress rules s 0 [] p p s :=
  ⟨.refl s, .refl p, hp, fun _ => rfl⟩

theorem trans (h : Progress rules s m counts p q s') (h' : Progress rules s' n counts' q r s'') :
    Progress rules s (m + n) (counts ++ counts') p r s'' where
  toAdvances := h.toAdvances.trans h'.toAdvances
  rewrites := h.rewrites.trans (h'.rewrites.mono (fun _ hr => hr) h.next_le)
  ids := h'.ids
  next_eq hzero := by rw [h'.next_eq (by omega), h.next_eq (by omega)]

theorem mono {rules' : List Rule} (h : Progress rules' s n counts p q s') (hle : rules' ⊆ rules) :
    Progress rules s n counts p q s' :=
  ⟨h.toAdvances, h.rewrites.mono hle (Nat.le_refl _), h.ids, h.next_eq⟩

theorem built (h : Progress rules s n counts p q s') (hp : p.Built s.next) : q.Built s'.next :=
  ⟨h.rewrites.checked hp.checked, h.ids⟩

theorem knownExprs (h : Progress rules s n counts p q s') (hp : p.Built s.next)
    (hknown : p.KnownExprs) : q.KnownExprs :=
  h.rewrites.knownExprs hp.checked hknown

end Progress

/-- What rewriting plans one by one comes to. -/
structure ProgressAll (rules : List Rule) (s : RunState) (n : Nat) (ps qs : List Plan)
    (s' : RunState) : Prop extends Advances s [] s' where
  rewrites : RewritesAll rules s.next n ps qs
  ids : ∀ q ∈ qs, q.IdsBelow s'.next
  next_eq : n = 0 → s'.next = s.next

namespace ProgressAll

variable {rules : List Rule} {s' s'' : RunState} {m n : Nat} {p q : Plan} {ps qs : List Plan}

theorem nil (s : RunState) : ProgressAll rules s 0 [] [] s :=
  ⟨.refl s, .nil, by simp, fun _ => rfl⟩

theorem cons (h : Progress rules s m [] p q s') (h' : ProgressAll rules s' n ps qs s'') :
    ProgressAll rules s (m + n) (p :: ps) (q :: qs) s'' where
  toAdvances := h.toAdvances.trans h'.toAdvances
  rewrites := .cons h.rewrites (h'.rewrites.mono h.next_le)
  ids := List.forall_mem_cons.mpr ⟨h.ids.mono h'.next_le, h'.ids⟩
  next_eq hzero := by rw [h'.next_eq (by omega), h.next_eq (by omega)]

end ProgressAll

/-- A debug entry is no rewrite. -/
theorem ensures_debug (rules : List Rule) {p : Plan} {message : Text}
    {context : Option Logging.Context} (hp : p.IdsBelow s.next) :
    (debug message context).Ensures s fun _ s' =>
      Progress rules s 0 (context.bind Logging.Context.rewrites?).toList p p s' := by
  refine ensures_write.imp ?_
  rintro _ _ rfl
  refine ⟨⟨Nat.le_refl _, [_], rfl, by simp, ?_⟩, .refl p, hp, fun _ => rfl⟩
  cases h : context.bind Logging.Context.rewrites? <;> simp [Logging.Entry.rewrites?, h]

/-! ## Attempts -/

section Walks

variable {rules : List Rule} {rule : Rule} {p : Plan}

theorem tryRule_of_none {next : Nat} (hfire : rule.fire p s.next = .ok (none, next)) :
    (tryRule rule p).Ensures s fun r s' => r = none ∧ s' = s := by
  refine ensures_get.bind ?_
  rintro _ _ ⟨rfl, rfl⟩
  split
  · exact ensures_pure ⟨rfl, rfl⟩
  all_goals simp_all

/-- A firing draws identities and is reported. -/
theorem tryRule_of_some {q : Plan} {next : Nat} (hfire : rule.fire p s.next = .ok (some q, next))
    (hlabels : p.hasWritableLabel ∧ q.hasWritableLabel) :
    (tryRule rule p).Ensures s fun r s' => r.map Subtype.val = some q ∧
      ∃ entry : Logging.Entry, s' = ⟨next, s.log ++ [entry]⟩ ∧ entry.level = .debug ∧
        entry.rewrites? = none := by
  refine ensures_get.bind ?_
  rintro _ _ ⟨rfl, rfl⟩
  split
  · simp_all
  · rename_i h
    obtain ⟨rfl, rfl⟩ : q = _ ∧ next = _ := by simpa using hfire.symm.trans h
    refine ensures_modify.bind ?_
    rintro _ _ rfl
    refine (ensures_written (if_pos hlabels.1)).bind ?_
    rintro _ _ ⟨rfl, rfl⟩
    refine (ensures_written (if_pos hlabels.2)).bind ?_
    rintro _ _ ⟨rfl, rfl⟩
    refine ensures_write.bind ?_
    rintro _ _ rfl
    exact ensures_pure ⟨rfl, _, rfl, rfl, rfl⟩
  all_goals simp_all

/-- A firing that cannot be reported ends the run. -/
theorem tryRule_fails_of_some {q : Plan} {next : Nat}
    (hfire : rule.fire p s.next = .ok (some q, next))
    (hlabels : ¬ (p.hasWritableLabel ∧ q.hasWritableLabel)) :
    (tryRule rule p).Fails s .tooLong := by
  refine ensures_get.bind_fails ?_
  rintro _ _ ⟨rfl, rfl⟩
  split
  · simp_all
  · rename_i h
    obtain ⟨rfl, rfl⟩ : q = _ ∧ next = _ := by simpa using hfire.symm.trans h
    refine ensures_modify.bind_fails ?_
    rintro _ _ rfl
    by_cases hbefore : p.hasWritableLabel
    · have hafter : ¬ q.hasWritableLabel := fun hafter => hlabels ⟨hbefore, hafter⟩
      refine (ensures_written (if_pos hbefore)).bind_fails ?_
      rintro _ _ ⟨rfl, rfl⟩
      rw [Plan.label?, if_neg hafter]
      exact (fails_throw _).bind _
    · rw [Plan.label?, if_neg hbefore]
      exact (fails_throw _).bind _
  all_goals simp_all

theorem tryRule_fails_of_error (hfire : rule.fire p s.next = .error .foreignExpr) :
    (tryRule rule p).Fails s (.rule .foreignExpr) := by
  refine ensures_get.bind_fails ?_
  rintro _ _ ⟨rfl, rfl⟩
  split
  · simp_all
  · simp_all
  · simp_all
  · rename_i h
    obtain rfl := Except.error.inj (hfire.symm.trans h)
    exact fails_throw _

/-- What an attempt at a node comes to: the rule does not match, or it fires, which is reported or
cannot be reported, or it is stuck. -/
inductive Tries (rule : Rule) (p : Plan) (s : RunState) : Prop where
  | missed (hmatch : rule.match? p = none)
      (h : (tryRule rule p).Ensures s fun r s' => r = none ∧ s' = s)
  | fired {q : Plan} (hfires : rule.Fires s.next p q)
      (hlabels : p.hasWritableLabel ∧ q.hasWritableLabel)
      (h : (tryRule rule p).Ensures s fun r s' =>
        r.map Subtype.val = some q ∧ Progress [rule] s 1 [] p q s')
  | unreported {q : Plan} (hfires : rule.Fires s.next p q)
      (hlabels : ¬ (p.hasWritableLabel ∧ q.hasWritableLabel))
      (h : (tryRule rule p).Fails s .tooLong)
  | stuck (hstuck : rule.Stuck p) (h : (tryRule rule p).Fails s (.rule .foreignExpr))

theorem tries (hrule : rule ∈ shippedRules) (hp : p.Built s.next) : Tries rule p s := by
  rcases Rule.fire_cases hrule hp.checked s.next with
    ⟨hmatch, hfire⟩ | ⟨q, next', hfire, hfires, hle, hids⟩ | ⟨hstuck, hfire⟩
  · exact .missed hmatch (tryRule_of_none hfire)
  · by_cases hlabels : p.hasWritableLabel ∧ q.hasWritableLabel
    · refine .fired hfires hlabels ((tryRule_of_some hfire hlabels).imp ?_)
      rintro r _ ⟨hr, entry, rfl, hdebug, hreports⟩
      refine ⟨hr, ⟨hle, [entry], rfl, by simpa, by simp [hreports]⟩, ?_, hids hp.ids, by simp⟩
      exact .fires (List.mem_singleton_self rule) hfires
    · exact .unreported hfires hlabels (tryRule_fails_of_some hfire hlabels)
  · exact .stuck hstuck (tryRule_fails_of_error hfire)

/-- An attempt at a node leaves it as it is only if the rule does not match there. -/
theorem tryRule_ensuresUnless (hrule : rule ∈ shippedRules) (hmem : rule ∈ rules)
    (hp : p.Built s.next) :
    (tryRule rule p).EnsuresUnless (p.CanFail rules) s fun r s' =>
      match r with
      | none => s' = s ∧ rule.match? p = none
      | some q => rule.Fires s.next p q ∧ Progress rules s 1 [] p q s' := by
  cases tries hrule hp with
  | missed hmatch h =>
    refine h.unless.imp ?_
    rintro _ _ ⟨rfl, rfl⟩
    exact ⟨rfl, hmatch⟩
  | fired hfires hlabels h =>
    refine h.unless.imp ?_
    rintro (_ | q) s' ⟨hr, hprogress⟩
    · exact nomatch hr
    · obtain rfl := Option.some.inj hr
      exact ⟨hfires, hprogress.mono (by simpa using hmem)⟩
  | unreported hfires hlabels h => exact .inr ⟨_, h, .here hmem (.unreported hfires hlabels)⟩
  | stuck hstuck h => exact .inr ⟨_, h, .here hmem (.stuck hstuck)⟩

/-! ## Children -/

section Exchange

variable {n : Nat} {children : List Plan}

/-- What becomes of a node when its children have been rewritten. -/
def Exchanges (rules : List Rule) (s t : RunState) (n : Nat) (p : Plan) (children : List Plan) :
    Prop :=
  (exchange p children).Ensures t fun q s' =>
    Progress rules s n [] p q s' ∧ ∃ id, q = p.atop id children

/-- A node stays if no child was rewritten. -/
theorem exchanges_of_zero (hp : p.Built s.next)
    (h : ProgressAll rules s 0 p.children children t) : Exchanges rules s t 0 p children := by
  obtain rfl : children = p.children := h.rewrites.eq_of_zero rfl
  rw [Exchanges, exchange, if_pos rfl]
  exact ensures_pure ⟨⟨h.toAdvances, .refl p, hp.ids.mono h.next_le, h.next_eq⟩, p.id,
    p.atop_children.symm⟩

/-- A child that was rewritten has a new identity, so comparing identities finds it. -/
theorem map_id_ne (hp : p.Built s.next) (h : ProgressAll rules s n p.children children t)
    (hpos : 0 < n) : children.map Plan.id ≠ p.children.map Plan.id := by
  intro hids
  obtain ⟨c, hc, hle⟩ := h.rewrites.exists_next_le_id hpos
  obtain ⟨d, hd, hid⟩ := List.mem_map.mp (hids ▸ List.mem_map_of_mem hc)
  have hold : d.id < s.next := (hp.child hd).ids.self
  omega

/-- A node that accepts children of which one was rewritten is built anew over them. -/
theorem exchanges_of_ok (hp : p.Built s.next) (h : ProgressAll rules s n p.children children t)
    (hpos : 0 < n) (haccepts : p.accepts children = .ok ()) :
    Exchanges rules s t n p children := by
  have hne : p.children ≠ [] := by
    intro hnil
    exact hpos.ne' (hnil ▸ h.rewrites).zero_of_nil
  have hscan : ∀ id relation fields, p ≠ .scan id relation fields := by
    rintro id relation fields rfl
    exact hne rfl
  have hschemas := h.rewrites.schemas
  have hlength : children.length = p.children.length := hschemas.length_eq
  have hcheck : (p.atop t.next children).check = .ok () :=
    Plan.check_atop _ hp.checked.self (hschemas.imp fun _ _ hschema => .of_eq hschema)
  rw [Exchanges, exchange, if_neg (map_id_ne hp h hpos)]
  refine ensures_get.bind ?_
  rintro _ _ ⟨rfl, rfl⟩
  rw [Plan.withChildren_eq_ok hscan haccepts hcheck]
  refine ensures_modify.bind ?_
  rintro _ _ rfl
  refine ensures_pure ⟨⟨h.toAdvances.draw, h.rewrites.atop hpos h.next_le, ?_, ?_⟩, _, rfl⟩
  · refine Plan.all_iff.mpr ⟨?_, fun c hc => ?_⟩
    · rw [Plan.id_atop _ hne hlength]
      exact Nat.lt_succ_self _
    · rw [Plan.children_atop _ hlength] at hc
      exact (h.ids c hc).mono (Nat.le_succ _)
  · exact fun hzero => absurd hzero hpos.ne'

theorem exchange_fails {fault : ChildFault} (hp : p.Built s.next)
    (h : ProgressAll rules s n p.children children t) (hpos : 0 < n)
    (haccepts : p.accepts children = .error fault) :
    (exchange p children).Fails t (.child fault) := by
  rw [exchange, if_neg (map_id_ne hp h hpos)]
  refine ensures_get.bind_fails ?_
  rintro _ _ ⟨rfl, rfl⟩
  rw [Plan.withChildren_eq_error haccepts]
  exact fails_throw _

/-- Only a foreign node above a firing is not built anew. -/
theorem exchange_ensuresUnless (hp : p.Built s.next)
    (h : ProgressAll rules s n p.children children t) :
    (exchange p children).EnsuresUnless (p.CanFail rules) t fun q s' =>
      Progress rules s n [] p q s' ∧ ∃ id, q = p.atop id children := by
  rcases Nat.eq_zero_or_pos n with rfl | hpos
  · exact (exchanges_of_zero hp h).unless
  cases haccepts : p.accepts children with
  | ok u => exact (exchanges_of_ok hp h hpos haccepts).unless
  | error fault =>
    have hschemas := h.rewrites.schemas
    have hfails := exchange_fails hp h hpos haccepts
    obtain ⟨id, kind, old, own, rfl, hown, rfl⟩ :=
      Plan.accepts_eq_error hschemas.length_eq haccepts
    rw [Plan.map_schema_eq_of_forall₂ hschemas] at hown
    obtain ⟨rule, hmem, hfires⟩ := (h.rewrites.atop hpos h.next_le).firesIn hpos
    exact .inr ⟨_, hfails, .here hmem (.refused ⟨id, kind, old, rfl, hown⟩ hfires)⟩

end Exchange

/-! ## Walks -/

/-- A computation walks a plan with a rule: unless it fails, it makes progress and counts the
firings, and if there are none, then no node of the plan matches. -/
def Walks (rules : List Rule) (rule : Rule) (p : Plan) (x : Run (Plan × Nat)) (s : RunState) :
    Prop :=
  x.EnsuresUnless (p.CanFail rules) s fun r s' =>
    Progress rules s r.2 [] p r.1 s' ∧ (r.2 = 0 → rule.Idle p)

theorem visitAll_ensuresUnless {size : Nat} {visit : (c : Plan) → c.size < size → Run (Plan × Nat)}
    (hvisit : ∀ (c : Plan) (hc : c.size < size) (t : RunState), c.Built t.next →
      Walks rules rule c (visit c hc) t) {ps : List Plan} (hps : ∀ c ∈ ps, c.Built s.next)
    (hsize : ∀ c ∈ ps, c.size < size) :
    (visitAll visit ps hsize).EnsuresUnless (fun e => ∃ c ∈ ps, c.CanFail rules e) s fun r s' =>
      ProgressAll rules s r.2 ps r.1 s' ∧ (r.2 = 0 → ∀ c ∈ ps, rule.Idle c) := by
  induction ps generalizing s with
  | nil => exact (ensures_pure ⟨.nil s, by simp⟩).unless
  | cons c cs ih =>
    obtain ⟨hc, hcs⟩ := List.forall_mem_cons.mp hps
    refine ((hvisit c _ s hc).mono fun e he => ⟨c, List.mem_cons_self, he⟩).bind ?_
    rintro ⟨c', m⟩ t ⟨hprogress, hidle⟩
    refine ((ih (fun d hd => (hcs d hd).mono hprogress.next_le) _).mono ?_).bind ?_
    · rintro e ⟨d, hd, he⟩
      exact ⟨d, List.mem_cons_of_mem c hd, he⟩
    rintro ⟨cs', n⟩ u ⟨hprogressAll, hidleAll⟩
    dsimp only at hprogress hidle hprogressAll hidleAll ⊢
    refine (ensures_pure ⟨.cons hprogress hprogressAll, fun hzero => ?_⟩).unless
    exact List.forall_mem_cons.mpr ⟨hidle (by omega), hidleAll (by omega)⟩

/-- Visiting the children with a walk is a walk, apart from the root. -/
theorem visitChildren_ensuresUnless (hp : p.Built s.next)
    {visit : (c : Plan) → c.size < p.size → Run (Plan × Nat)}
    (hvisit : ∀ (c : Plan) (hc : c.size < p.size) (t : RunState), c.Built t.next →
      Walks rules rule c (visit c hc) t) :
    (visitChildren p visit).EnsuresUnless (p.CanFail rules) s fun r s' =>
      Progress rules s r.2 [] p r.1 s' ∧ (r.2 = 0 → ∀ c ∈ p.children, rule.Idle c) := by
  refine ((visitAll_ensuresUnless hvisit (fun c hc => hp.child hc) _).mono ?_).bind ?_
  · rintro e ⟨c, hc, he⟩
    exact .of_child hc he
  rintro ⟨children, fired⟩ t ⟨hprogress, hidle⟩
  refine (exchange_ensuresUnless hp hprogress).bind ?_
  rintro q u ⟨hq, -⟩
  exact (ensures_pure ⟨hq, hidle⟩).unless

theorem bottomUp_walks (hrule : rule ∈ shippedRules) (hmem : rule ∈ rules) (hp : p.Built s.next) :
    Walks rules rule p (bottomUp (tryRule rule) p) s := by
  induction hsize : p.size using Nat.strongRecOn generalizing p s with
  | ind size ih =>
    subst hsize
    rw [bottomUp]
    refine (visitChildren_ensuresUnless hp fun c hc t hb => ih c.size hc hb rfl).bind ?_
    rintro ⟨q, fired⟩ t ⟨hq, hidle⟩
    refine ((tryRule_ensuresUnless hrule hmem (hq.built hp)).mono fun _ =>
      .of_rewrites hq.rewrites).bind ?_
    rintro (_ | r) t' hr
    · obtain ⟨rfl, hmatch⟩ := hr
      refine (ensures_pure ⟨hq, fun hzero => ?_⟩).unless
      obtain rfl : q = p := hq.rewrites.eq_of_zero hzero
      exact Rule.idle_iff.2 ⟨hmatch, hidle hzero⟩
    · refine (ensures_pure ⟨hq.trans hr.2, fun hzero => ?_⟩).unless
      exact absurd hzero (Nat.succ_ne_zero fired)

theorem topDown_walks (hrule : rule ∈ shippedRules) (hmem : rule ∈ rules) (hp : p.Built s.next) :
    Walks rules rule p (topDown (tryRule rule) p) s := by
  induction hsize : p.size using Nat.strongRecOn generalizing p s with
  | ind size ih =>
    subst hsize
    rw [topDown]
    -- The replacement is as large as the plan, so the hypothesis covers its children, too.
    refine (tryRule_ensuresUnless hrule hmem hp).bind ?_
    rintro (_ | ⟨q, hqp⟩) t hq
    · obtain ⟨rfl, hmatch⟩ := hq
      refine (visitChildren_ensuresUnless hp fun c hc t hb => ih c.size hc hb rfl).imp ?_
      exact fun r s' ⟨hr, hidle⟩ => ⟨hr, fun hzero => Rule.idle_iff.2 ⟨hmatch, hidle hzero⟩⟩
    · obtain ⟨-, hq⟩ := hq
      refine ((visitChildren_ensuresUnless (hq.built hp) fun c hc t hb =>
        ih c.size (hqp ▸ hc) hb rfl).mono fun _ => .of_rewrites hq.rewrites).bind ?_
      rintro ⟨r, fired⟩ t' ⟨hr, -⟩
      refine (ensures_pure ⟨?_, fun hzero => absurd hzero (Nat.succ_ne_zero fired)⟩).unless
      rw [Nat.add_comm]
      exact hq.trans hr

theorem walk_walks {order : MatchOrder} (hrule : rule ∈ shippedRules) (hmem : rule ∈ rules)
    (hp : p.Built s.next) : Walks rules rule p (walk (tryRule rule) order p) s := by
  cases order with
  | bottomUp => exact bottomUp_walks hrule hmem hp
  | topDown => exact topDown_walks hrule hmem hp

end Walks

/-! ## Passes -/

section Passes

variable {rules : List Rule} {order : MatchOrder} {p : Plan}

/-- Unless it fails, a pass makes progress and counts the firings of all rules. If there are none,
then no rule matches anywhere. -/
theorem pass_ensuresUnless {later : List Rule} (hlater : later ⊆ rules)
    (hrules : rules ⊆ shippedRules) (hp : p.Built s.next) :
    (pass order later p).EnsuresUnless (p.CanFail rules) s fun r s' =>
      Progress rules s r.2 [] p r.1 s' ∧ (r.2 = 0 → ∀ rule ∈ later, rule.Idle p) := by
  induction later generalizing p s with
  | nil => exact (ensures_pure ⟨.refl hp.ids, by simp⟩).unless
  | cons rule later ih =>
    obtain ⟨hmem, hlater⟩ := List.cons_subset.1 hlater
    refine (walk_walks (hrules hmem) hmem hp).bind ?_
    rintro ⟨q, fired⟩ t ⟨hq, hidle⟩
    refine ((ih hlater (hq.built hp)).mono fun _ => .of_rewrites hq.rewrites).bind ?_
    rintro ⟨r, firedLater⟩ t' ⟨hr, hidleLater⟩
    dsimp only at hq hidle hr hidleLater
    refine (ensures_pure ⟨hq.trans hr, fun hzero => List.forall_mem_cons.2 ?_⟩).unless
    obtain rfl : q = p := hq.rewrites.eq_of_zero (by omega)
    exact ⟨hidle (by omega), hidleLater (by omega)⟩

/-- How the passes of a run end: with one that fires nothing, since no rule matches anywhere, or
with the last of the passes allowed, each of which has fired. -/
def Ends (rules : List Rule) (left : Nat) (counts : List Nat) (q : Plan) : Prop :=
  (counts.getLast? = some 0 ∧ counts.length ≤ left ∧ ∀ rule ∈ rules, rule.Idle q) ∨
    (counts.length = left ∧ ∀ n ∈ counts, 0 < n)

/-- The passes of a run fail where a walk does, and at the end if they are all used up and the bound
is too long to be written. -/
theorem passes_ensuresUnless {context : Logging.Context} {bound : Int} {left done : Nat}
    (hcontext : context.rewrites? = none) (hrules : rules ⊆ shippedRules) (hp : p.Built s.next) :
    (passes rules order context bound left done p).EnsuresUnless
      (fun e => p.CanFail rules e ∨ (e = .tooLong ∧ ¬ Value.isShort bound ∧ p.Lasts rules left)) s
      fun q s' => ∃ counts, Progress rules s counts.sum counts p q s' ∧ Ends rules left counts q := by
  induction left generalizing p s done with
  | zero =>
    have hlong (h : (if Value.isShort bound then some bound else none) = none) :
        ¬ Value.isShort bound := fun hshort => nomatch (if_pos hshort).symm.trans h
    refine (ensuresUnless_written fun hnone =>
      .inr ⟨rfl, hlong hnone, 0, p, .refl p, Nat.le_refl 0⟩).bind ?_
    rintro shown _ ⟨-, rfl⟩
    refine (ensures_debug rules hp.ids).unless.bind fun _ t ht => ?_
    refine (ensures_pure ⟨[], ?_, .inr ⟨rfl, by simp⟩⟩).unless
    simpa [hcontext] using ht
  | succ left ih =>
    refine ((pass_ensuresUnless (List.Subset.refl _) hrules hp).mono fun _ => .inl).bind ?_
    rintro ⟨q, fired⟩ t ⟨hq, hidle⟩
    refine (ensures_debug rules hq.ids).unless.bind fun _ t' ht' => ?_
    dsimp only at hq hidle ht'
    have hreported : Progress rules s fired [fired] p q t' := by
      simpa [Logging.Context.rewrites?_merge] using hq.trans ht'
    split
    · rename_i hzero
      subst hzero
      obtain rfl : q = p := hq.rewrites.eq_of_zero rfl
      exact (ensures_pure ⟨[0], hreported, .inl ⟨rfl, by simp, hidle rfl⟩⟩).unless
    · rename_i hpos
      refine ((ih (hreported.built hp)).mono ?_).imp ?_
      · rintro e (hfails | ⟨rfl, hlong, n, r, hr, hle⟩)
        · exact .inl (.of_rewrites hreported.rewrites hfails)
        · have hrewrites := hreported.rewrites.mono (fun _ h => h) (Nat.zero_le s.next)
          exact .inr ⟨rfl, hlong, fired + n, r, hrewrites.trans hr, by omega⟩
      · rintro r s' ⟨counts, hr, hends⟩
        refine ⟨fired :: counts, hreported.trans hr, ?_⟩
        rcases hends with ⟨hlast, hlength, hidle⟩ | ⟨hlength, hall⟩
        · exact .inl ⟨by simp [List.getLast?_cons, hlast], by simpa using hlength, hidle⟩
        · exact .inr ⟨by simp [hlength], List.forall_mem_cons.2 ⟨by omega, hall⟩⟩

end Passes

end Run

namespace Optimizer

open Run

variable {o : Optimizer} {s : RunState} {p : Plan}

/-- A run of the optimizer returns after firings of its rules that the passes report, unless it
fails. -/
theorem ensuresUnless_optimizeWith (hrules : o.rules ⊆ shippedRules) (hp : p.Built s.next)
    (bound : Int) (order : MatchOrder) :
    (o.optimizeWith bound order p).EnsuresUnless (o.CanFail bound p) s fun q s' =>
      ∃ counts, Progress o.rules s counts.sum counts p q s' ∧
        Ends o.rules bound.toNat counts q := by
  refine (passes_ensuresUnless rfl hrules hp).mono ?_
  rintro e (hfails | ⟨rfl, hlong, hlasts⟩)
  · exact .rules hfails
  · exact .bound hlong hlasts

end Optimizer

end Semijoin
