import Mathlib.Data.Set.Card
import Semijoin.Proofs.Registry

/-!
# The history of a registry

What a registry holds is told by the calls that were made: the record of a node is the one that the
last call put there which was neither undone nor overridden since. `Faithful` says this of all
nodes, together with what a further call can and cannot change.
-/

namespace Semijoin

namespace HintRegistry

/-- The calls that a registry and its records take. -/
inductive Action where
  | newRecord
  | hintsFor (n : Plan)
  | attach (n : Plan) (r : Nat)
  | discard (n : Plan)
  | apply (n : Plan) (values : List (Text × Value))
  | get (n : Plan)
  | contains (n : Plan)
  | set (r : Nat) (hint : Hint) (value : Value)

namespace Action

/-- The node that a call is about. -/
def node? : Action → Option Plan
  | hintsFor n | attach n _ | discard n | apply n _ | get n | contains n => some n
  | newRecord | set .. => none

/-- The record that a call is given. -/
def record? : Action → Option Nat
  | attach _ r | set r _ _ => some r
  | newRecord | hintsFor _ | discard _ | apply .. | get _ | contains _ => none

/-- What a call means for the record of a node. -/
inductive Effect where
  /-- The node gets the record in place of the one it had. -/
  | attaches (r : Nat)
  /-- The record of the node is asked for, and made if the node has none. -/
  | requests
  | drops
  | nothing

def effect (n : Plan) : Action → Effect
  | attach m r => if n.id = m.id then .attaches r else .nothing
  | hintsFor m | apply m _ => if n.id = m.id then .requests else .nothing
  | discard m => if n.id = m.id then .drops else .nothing
  | newRecord | get _ | contains _ | set .. => .nothing

end Action

/-- The registry after a call. A setter that refuses its value leaves it as it is. -/
def act (g : HintRegistry) : Action → HintRegistry
  | .newRecord => g.newRecord.2
  | .hintsFor n => (g.recordFor n).2
  | .attach n r => g.attach n r
  | .discard n => g.discard n
  | .apply n values => (g.apply n values).2.registry
  | .get _ | .contains _ => g
  | .set r hint value =>
    match g.set r hint value with
    | .ok g => g
    | .error _ => g

/-- The registry that calls make of an empty one. -/
def after (calls : List Action) : HintRegistry := calls.foldl act {}

/-- Records that calls are given were made before. -/
def Possible (g : HintRegistry) : List Action → Prop
  | [] => True
  | a :: later => (∀ r ∈ a.record?, r < g.nextRecord) ∧ (g.act a).Possible later

/-- Whenever the node was given a record, it was discarded later. -/
def Bare (n : Plan) (calls : List Action) : Prop :=
  ∀ before a later, calls = before ++ a :: later →
    (a.effect n = .requests ∨ ∃ r, a.effect n = .attaches r) → ∃ b ∈ later, b.effect n = .drops

/-- The call, made after others, puts the record at the node: it attaches the record, or the node is
bare and the call makes the record for it. -/
def Puts (before : List Action) (a : Action) (n : Plan) (r : Nat) : Prop :=
  a.effect n = .attaches r ∨
    (a.effect n = .requests ∧ Bare n before ∧ r = (after before).nextRecord)

/-- The record was put at the node, and no later call took it away or attached another. -/
def Holds (calls : List Action) (n : Plan) (r : Nat) : Prop :=
  ∃ before a later, calls = before ++ a :: later ∧ Puts before a n r ∧
    ∀ b ∈ later, b.effect n = .requests ∨ b.effect n = .nothing

section Records

variable {g : HintRegistry} {m n : Plan} {r : Nat}

theorem lookup_filter_ne {α : Type} (xs : List (Nat × α)) (key k : Nat) :
    (xs.filter (·.1 ≠ key)).lookup k = if k = key then none else xs.lookup k := by
  induction xs with
  | nil => simp
  | cons x xs ih =>
    rw [List.filter_cons]
    split <;> grind

theorem recordOf?_attach : (g.attach m r).recordOf? n =
    if n.id = m.id then some r else g.recordOf? n :=
  lookup_putAt g.entries m.id r n.id

theorem recordOf?_discard :
    (g.discard m).recordOf? n = if n.id = m.id then none else g.recordOf? n :=
  lookup_filter_ne g.entries m.id n.id

theorem recordOf?_congr (hid : n.id = m.id) : g.recordOf? n = g.recordOf? m := by
  rw [recordOf?, recordOf?, hid]

theorem recordOf?_recordFor : (g.recordFor m).2.recordOf? n =
    if n.id = m.id then some ((g.recordOf? n).getD g.nextRecord) else g.recordOf? n := by
  unfold recordFor
  split
  · rename_i r hr
    split
    · rename_i hid
      rw [recordOf?_congr hid, hr]
      rfl
    · rfl
  · rename_i hnone
    rw [recordOf?_attach]
    split
    · rename_i hid
      rw [recordOf?_congr hid, hnone]
      rfl
    · rfl

theorem recordOf?_apply {values : List (Text × Value)} :
    (g.apply m values).2.registry.recordOf? n = (g.recordFor m).2.recordOf? n := by
  rw [recordOf?, apply, (writes_setAll _ _ _ _).entries, ← recordOf?]

theorem writes_act_set {hint : Hint} {value : Value} :
    Writes r g (g.act (.set r hint value)) := by
  rw [act]
  split
  · rename_i hset
    exact writes_set hset
  · exact .refl r g

/-- A call does to the record of a node what its effect says. -/
theorem recordOf?_act (g : HintRegistry) (a : Action) (n : Plan) :
    (g.act a).recordOf? n =
      match a.effect n with
      | .attaches r => some r
      | .requests => some ((g.recordOf? n).getD g.nextRecord)
      | .drops => none
      | .nothing => g.recordOf? n := by
  cases a with
  | newRecord | get | contains => rfl
  | set => rw [recordOf?, writes_act_set.entries, ← recordOf?, Action.effect]
  | attach m r =>
    rw [act, recordOf?_attach, Action.effect]
    by_cases hid : n.id = m.id <;> simp [hid]
  | hintsFor m =>
    rw [act, recordOf?_recordFor, Action.effect]
    by_cases hid : n.id = m.id <;> simp [hid]
  | apply m values =>
    rw [act, recordOf?_apply, recordOf?_recordFor, Action.effect]
    by_cases hid : n.id = m.id <;> simp [hid]
  | discard m =>
    rw [act, recordOf?_discard, Action.effect]
    by_cases hid : n.id = m.id <;> simp [hid]

end Records

/-! ## Histories -/

section Histories

variable {calls : List Action} {a : Action} {n : Plan} {r : Nat}

theorem after_concat : after (calls ++ [a]) = (after calls).act a := by
  simp [after]

/-- Where a call stands in a history that is one call longer. -/
theorem concat_eq_append_cons_iff {α : Type} {xs before later : List α} {x a : α} :
    xs ++ [x] = before ++ a :: later ↔
      (xs = before ∧ x = a ∧ later = []) ∨
        ∃ later', xs = before ++ a :: later' ∧ later = later' ++ [x] := by
  induction later using List.reverseRecOn with
  | nil => simp [List.append_singleton_inj]
  | append_singleton later y =>
    have hsplit : before ++ a :: (later ++ [y]) = (before ++ a :: later) ++ [y] := by simp
    rw [hsplit, List.append_singleton_inj]
    constructor
    · rintro ⟨rfl, rfl⟩
      exact .inr ⟨later, rfl, rfl⟩
    · rintro (⟨-, -, hnil⟩ | ⟨later', rfl, hlater⟩)
      · exact absurd hnil (by simp)
      · obtain ⟨rfl, rfl⟩ := List.append_singleton_inj.1 hlater
        exact ⟨rfl, rfl⟩

theorem bare_concat : Bare n (calls ++ [a]) ↔
    a.effect n = .drops ∨ (Bare n calls ∧ a.effect n = .nothing) := by
  constructor
  · intro hbare
    by_cases hdrops : a.effect n = .drops
    · exact .inl hdrops
    have hgives : ¬ (a.effect n = .requests ∨ ∃ r, a.effect n = .attaches r) := fun hgives => by
      obtain ⟨b, hb, -⟩ := hbare calls a [] rfl hgives
      exact absurd hb List.not_mem_nil
    refine .inr ⟨fun before c later hcalls hc => ?_, ?_⟩
    · obtain ⟨b, hb, hbdrops⟩ := hbare before c (later ++ [a]) (by simp [hcalls]) hc
      rcases List.mem_append.1 hb with hb | hb
      · exact ⟨b, hb, hbdrops⟩
      · obtain rfl := List.mem_singleton.1 hb
        exact absurd hbdrops hdrops
    · cases heffect : a.effect n <;> simp_all
  · rintro (hdrops | ⟨hbare, hnothing⟩) before c later hcalls hc
    · rcases concat_eq_append_cons_iff.1 hcalls with ⟨-, rfl, -⟩ | ⟨later', -, rfl⟩
      · exact absurd hc (by simp [hdrops])
      · exact ⟨a, by simp, hdrops⟩
    · rcases concat_eq_append_cons_iff.1 hcalls with ⟨-, rfl, -⟩ | ⟨later', hbefore, rfl⟩
      · exact absurd hc (by simp [hnothing])
      · obtain ⟨b, hb, hbdrops⟩ := hbare before c later' hbefore hc
        exact ⟨b, List.mem_append_left _ hb, hbdrops⟩

theorem holds_concat : Holds (calls ++ [a]) n r ↔
    Puts calls a n r ∨ (Holds calls n r ∧ (a.effect n = .requests ∨ a.effect n = .nothing)) := by
  constructor
  · rintro ⟨before, c, later, hcalls, hputs, hlater⟩
    rcases concat_eq_append_cons_iff.1 hcalls with ⟨rfl, rfl, -⟩ | ⟨later', hbefore, rfl⟩
    · exact .inl hputs
    · refine .inr ⟨⟨before, c, later', hbefore, hputs, fun b hb => ?_⟩, hlater a (by simp)⟩
      exact hlater b (List.mem_append_left _ hb)
  · rintro (hputs | ⟨⟨before, c, later, rfl, hputs, hlater⟩, hlast⟩)
    · exact ⟨calls, a, [], rfl, hputs, by simp⟩
    · refine ⟨before, c, later ++ [a], by simp, hputs, fun b hb => ?_⟩
      rcases List.mem_append.1 hb with hb | hb
      · exact hlater b hb
      · obtain rfl := List.mem_singleton.1 hb
        exact hlast

/-- A node is bare, or it has the record that was put there. -/
theorem recordOf?_after (calls : List Action) (n : Plan) :
    ((after calls).recordOf? n = none ↔ Bare n calls) ∧
      ∀ r, (after calls).recordOf? n = some r ↔ Holds calls n r := by
  induction calls using List.reverseRecOn with
  | nil =>
    have hnone : (after []).recordOf? n = none := rfl
    refine ⟨iff_of_true hnone fun before a later h => by simp at h, fun r => ?_⟩
    refine iff_of_false (by simp [hnone]) ?_
    rintro ⟨before, a, later, h, -⟩
    simp at h
  | append_singleton calls a ih =>
    obtain ⟨hnone, hsome⟩ := ih
    simp only [after_concat, bare_concat, holds_concat, Puts, ← hnone, ← hsome, recordOf?_act]
    cases a.effect n with
    | attaches r => simp
    | drops => simp
    | nothing => simp
    | requests =>
      -- The request finds the record, or else it makes one.
      cases (after calls).recordOf? n <;> simp [eq_comm]

end Histories

/-! ## What calls keep -/

section Kept

variable {g g' : HintRegistry} {calls : List Action} {a : Action} {m n : Plan} {r : Nat}

/-- Every node has one entry at most, its record was made before, and records that were not made
yet are empty. -/
structure Kept (g : HintRegistry) : Prop where
  nodup : (g.entries.map Prod.fst).Nodup
  attached : ∀ e ∈ g.entries, e.2 < g.nextRecord
  unmade : ∀ r, g.nextRecord ≤ r → g.record r = {}

theorem keys_putAt {α : Type} (xs : List (Nat × α)) (key : Nat) (value : α) :
    (putAt xs key value).map Prod.fst =
      if key ∈ xs.map Prod.fst then xs.map Prod.fst else xs.map Prod.fst ++ [key] := by
  fun_induction putAt xs key value <;> grind

theorem record_newRecord (hr : r ≠ g.nextRecord) : g.newRecord.2.record r = g.record r := by
  simp [record, newRecord, lookup_putAt, hr]

theorem record_recordFor (hr : r ≠ g.nextRecord) : (g.recordFor m).2.record r = g.record r := by
  unfold recordFor
  split
  · rfl
  · exact record_newRecord hr

namespace Kept

theorem writes (h : g.Kept) (hw : Writes r g g') (hr : r < g.nextRecord) : g'.Kept where
  nodup := hw.entries ▸ h.nodup
  attached := by
    rw [hw.entries, hw.nextRecord]
    exact h.attached
  unmade r' hr' := by
    rw [hw.nextRecord] at hr'
    rw [hw.record r' (by omega), h.unmade r' hr']

theorem newRecord (h : g.Kept) : g.newRecord.2.Kept where
  nodup := h.nodup
  attached e he := Nat.lt_succ_of_lt (h.attached e he)
  unmade r hr := by
    have hlt : g.nextRecord < r := hr
    rw [record_newRecord (by omega), h.unmade r (by omega)]

theorem attach (h : g.Kept) (hr : r < g.nextRecord) : (g.attach n r).Kept where
  nodup := by
    have hkeys : (g.attach n r).entries.map Prod.fst = _ := keys_putAt g.entries n.id r
    rw [hkeys]
    split
    · exact h.nodup
    · rename_i hnew
      exact List.nodup_append_comm.1 (List.nodup_cons.2 ⟨hnew, h.nodup⟩)
  attached e he := by
    rcases mem_of_mem_putAt he with rfl | he
    · exact hr
    · exact h.attached e he
  unmade := h.unmade

theorem recordFor (h : g.Kept) : (g.recordFor n).2.Kept := by
  unfold HintRegistry.recordFor
  split
  · exact h
  · exact h.newRecord.attach (Nat.lt_succ_self _)

theorem lt_of_recordOf? (h : g.Kept) (hr : g.recordOf? n = some r) : r < g.nextRecord :=
  h.attached _ (mem_entries_of_recordOf? hr)

theorem recordFor_lt (h : g.Kept) : (g.recordFor n).1 < (g.recordFor n).2.nextRecord := by
  unfold HintRegistry.recordFor
  split
  · rename_i hr
    exact h.lt_of_recordOf? hr
  · exact Nat.lt_succ_self _

/-- One call keeps it, if the record that it is given was made before. -/
theorem act (h : g.Kept) (ha : ∀ r ∈ a.record?, r < g.nextRecord) : (g.act a).Kept := by
  cases a with
  | newRecord => exact h.newRecord
  | hintsFor n => exact h.recordFor
  | attach n r => exact h.attach (ha r rfl)
  | discard n =>
    exact ⟨h.nodup.sublist (List.filter_sublist.map _),
      fun e he => h.attached e (List.mem_filter.1 he).1, h.unmade⟩
  | apply n values => exact h.recordFor.writes (writes_setAll _ _ _ _) h.recordFor_lt
  | get | contains => exact h
  | set r hint value => exact h.writes writes_act_set (ha r rfl)

end Kept

theorem possible_concat (g : HintRegistry) (calls : List Action) (a : Action) :
    g.Possible (calls ++ [a]) ↔
      g.Possible calls ∧ ∀ r ∈ a.record?, r < (calls.foldl HintRegistry.act g).nextRecord := by
  induction calls generalizing g with
  | nil => simp [Possible]
  | cons b calls ih => simp only [List.cons_append, Possible, ih, List.foldl_cons, and_assoc]

theorem kept_after (h : Possible {} calls) : (after calls).Kept := by
  induction calls using List.reverseRecOn with
  | nil => exact ⟨List.nodup_nil, by simp [after], fun _ _ => rfl⟩
  | append_singleton calls a ih =>
    obtain ⟨hcalls, ha⟩ := (possible_concat _ _ _).1 h
    rw [after_concat]
    exact (ih hcalls).act ha

/-- Only a setter of a record, or hints that are applied to a node which has it, change what is in
the record. -/
theorem record_act (hr : r < g.nextRecord) (hchanged : (g.act a).record r ≠ g.record r) :
    (∃ hint value, a = .set r hint value) ∨
      ∃ m values, a = .apply m values ∧ g.recordOf? m = some r := by
  cases a with
  | newRecord => exact absurd (record_newRecord (by omega)) hchanged
  | hintsFor n => exact absurd (record_recordFor (by omega)) hchanged
  | attach | discard | get | contains => exact absurd rfl hchanged
  | set r' hint value =>
    by_cases hsame : r = r'
    · exact .inl ⟨hint, value, by rw [hsame]⟩
    · exact absurd (writes_act_set.record r hsame) hchanged
  | apply m values =>
    have hfor : (g.recordFor m).2.record r = g.record r := record_recordFor (by omega)
    by_cases hsame : r = (g.recordFor m).1
    · refine .inr ⟨m, values, rfl, ?_⟩
      unfold recordFor at hsame
      split at hsame
      · rename_i hrecord
        rw [hrecord, hsame]
      · exact absurd hsame (Nat.ne_of_lt hr)
    · have hwrites := (writes_setAll (g.recordFor m).2 m (g.recordFor m).1 values).record r hsame
      exact absurd (hwrites.trans hfor) hchanged

theorem recordOf?_act_of_ne (ha : ∀ m ∈ a.node?, m.id ≠ n.id) :
    (g.act a).recordOf? n = g.recordOf? n := by
  have hnothing : a.effect n = .nothing := by
    cases a with
    | newRecord | get | contains | set => rfl
    | hintsFor m | attach m r | discard m | apply m values =>
      exact if_neg (Ne.symm (ha m rfl))
  rw [recordOf?_act, hnothing]

theorem nextRecord_le_act (g : HintRegistry) (a : Action) :
    g.nextRecord ≤ (g.act a).nextRecord := by
  have hfor (m : Plan) : g.nextRecord ≤ (g.recordFor m).2.nextRecord := by
    unfold recordFor
    split
    · exact Nat.le_refl _
    · exact Nat.le_succ _
  cases a with
  | newRecord => exact Nat.le_succ _
  | hintsFor m => exact hfor m
  | apply m values => exact (hfor m).trans_eq (writes_setAll _ _ _ _).nextRecord.symm
  | set => exact writes_act_set.nextRecord.ge
  | attach | discard | get | contains => exact Nat.le_refl _

theorem Action.record?_of_effect (h : a.effect n = .attaches r) : a.record? = some r := by
  cases a with
  | attach m r' =>
    by_cases hid : n.id = m.id
    · simpa [effect, record?, hid] using h
    · simp [effect, hid] at h
  | hintsFor m | apply m | discard m => by_cases hid : n.id = m.id <;> simp [effect, hid] at h
  | newRecord | get | contains | set => simp [effect] at h

/-- The record is at this node alone. -/
structure Alone (g : HintRegistry) (n : Plan) (r : Nat) : Prop where
  here : g.recordOf? n = some r
  elsewhere : ∀ m, m.id ≠ n.id → g.recordOf? m ≠ some r
  made : r < g.nextRecord

/-- A call about other nodes and records leaves an unshared record unshared and as it is. -/
theorem Alone.act (h : g.Alone n r) (ha : ∀ m ∈ a.node?, m.id ≠ n.id) (hr : r ∉ a.record?) :
    (g.act a).Alone n r ∧ (g.act a).record r = g.record r := by
  refine ⟨⟨(recordOf?_act_of_ne ha).trans h.here, fun m hm => ?_, ?_⟩, ?_⟩
  · have helsewhere := h.elsewhere m hm
    rw [recordOf?_act]
    cases heffect : a.effect m with
    | attaches r' =>
      intro hattached
      obtain rfl : r' = r := Option.some.inj hattached
      exact hr (Action.record?_of_effect heffect)
    | requests =>
      have hnew : g.nextRecord ≠ r := Nat.ne_of_gt h.made
      cases hrecord : g.recordOf? m with
      | none => simpa using hnew
      | some r' => simpa [hrecord] using helsewhere
    | drops => simp
    | nothing => exact helsewhere
  · exact Nat.lt_of_lt_of_le h.made (nextRecord_le_act g a)
  · by_contra hchanged
    rcases record_act h.made hchanged with ⟨hint, value, rfl⟩ | ⟨m, values, rfl, hm⟩
    · exact hr rfl
    · exact h.elsewhere m (ha m rfl) hm

/-- Calls about other nodes and records leave an unshared record as it is. -/
theorem Alone.agree (h : g.Alone n r) {later : List Action}
    (hlater : ∀ a ∈ later, (∀ m ∈ a.node?, m.id ≠ n.id) ∧ r ∉ a.record?) :
    g.Agree (later.foldl HintRegistry.act g) n := by
  induction later generalizing g with
  | nil => exact .refl g n
  | cons a later ih =>
    obtain ⟨ha, hr⟩ := hlater a List.mem_cons_self
    obtain ⟨halone, hrecord⟩ := h.act ha hr
    have hstep : g.Agree (g.act a) n := by
      refine agree_of_record (halone.here.trans h.here.symm) fun r' hr' => ?_
      obtain rfl : r = r' := Option.some.inj (h.here.symm.trans hr')
      exact hrecord
    exact hstep.trans (ih halone fun b hb => hlater b (List.mem_cons_of_mem _ hb))

theorem recordOf?_recordFor_self : (g.recordFor n).2.recordOf? n = some (g.recordFor n).1 := by
  rw [recordOf?_recordFor, if_pos rfl]
  unfold recordFor
  split
  · rename_i hr
    rw [hr]
    rfl
  · rename_i hnone
    rw [hnone]
    rfl

theorem Kept.size_eq (h : g.Kept) :
    g.size = {i | ∃ n : Plan, n.id = i ∧ ∃ r, g.recordOf? n = some r}.ncard := by
  have hids : {i | ∃ n : Plan, n.id = i ∧ ∃ r, g.recordOf? n = some r} =
      ((g.entries.map Prod.fst).toFinset : Set Nat) := by
    ext i
    simp only [Set.mem_ofPred_eq, List.coe_toFinset, List.mem_map]
    constructor
    · rintro ⟨n, rfl, r, hr⟩
      exact ⟨(n.id, r), mem_entries_of_recordOf? hr, rfl⟩
    · rintro ⟨e, he, rfl⟩
      refine ⟨.scan e.1 "" [], rfl, Option.ne_none_iff_exists'.1 fun hnone => ?_⟩
      exact absurd rfl (bne_iff_ne.1 (List.lookup_eq_none_iff.1 hnone e he))
  rw [hids, Set.ncard_coe_finset, List.toFinset_card_of_nodup h.nodup, List.length_map, size]

end Kept

/-! ## What a registry says -/

/-- The registry that calls have made is a store, keyed by the identities of nodes, of what they
have put there. -/
structure Faithful (calls : List Action) (g : HintRegistry) : Prop where
  /-- A node has the record that was put there last, and no other. -/
  some_iff : ∀ n r, g.recordOf? n = some r ↔ Holds calls n r
  none_iff : ∀ n, g.recordOf? n = none ↔ Bare n calls
  /-- Lookups answer from the record of the node, and nothing comes of them. -/
  get?_iff : ∀ n h, g.get? n = some h ↔ ∃ r, Holds calls n r ∧ g.record r = h
  contains_iff : ∀ n, g.contains n ↔ ¬ Bare n calls
  lookups : ∀ n, g.act (.get n) = g ∧ g.act (.contains n) = g
  /-- What is returned for a node is its record from then on, whether or not all values that were
  applied to it are taken. -/
  returned : ∀ n values, (g.act (.hintsFor n)).recordOf? n = some (g.recordFor n).1 ∧
    (g.act (.apply n values)).recordOf? n = some (g.apply n values).1
  /-- The record that is made next belongs to no node, and nothing is in it. -/
  fresh : g.record g.nextRecord = {} ∧ ∀ n, g.recordOf? n ≠ some g.nextRecord
  /-- A call about one node leaves every other node the record that it has. -/
  others : ∀ a n, (∀ m ∈ a.node?, m.id ≠ n.id) → (g.act a).recordOf? n = g.recordOf? n
  /-- Only a setter of a record, or hints applied to a node that has it, change what is in it. -/
  contents : ∀ a r, r < g.nextRecord → (g.act a).record r ≠ g.record r →
    (∃ hint value, a = .set r hint value) ∨ ∃ m values, a = .apply m values ∧ g.recordOf? m = some r
  /-- A call about another node or to another record does not show at a node that shares its record
  with no other, even if the call is about to share it. -/
  unshared : ∀ n, (∀ m r, m.id ≠ n.id → g.recordOf? n = some r → g.recordOf? m ≠ some r) →
    ∀ a, (∀ m ∈ a.node?, m.id ≠ n.id) →
      (∀ r hint value, a = .set r hint value → g.recordOf? n ≠ some r) → g.Agree (g.act a) n
  /-- As long as no call shares it, that remains so through all further calls. -/
  undisturbed : ∀ n r, Holds calls n r → (∀ m, m.id ≠ n.id → ¬ Holds calls m r) →
    ∀ later : List Action, (∀ a ∈ later, (∀ m ∈ a.node?, m.id ≠ n.id) ∧ r ∉ a.record?) →
      g.Agree (later.foldl act g) n
  size_eq : g.size = {i | ∃ n : Plan, n.id = i ∧ ∃ r, Holds calls n r}.ncard

/-- Whatever calls are made, in whatever order and about whatever nodes, the registry is
faithful. -/
theorem after_faithful {calls : List Action} (h : Possible {} calls) :
    Faithful calls (after calls) := by
  have hkept : (after calls).Kept := kept_after h
  have hnone (n : Plan) := (recordOf?_after calls n).1
  have hsome (n : Plan) := (recordOf?_after calls n).2
  exact {
    some_iff := fun n => hsome n
    none_iff := hnone
    get?_iff := fun n h => by simp [HintRegistry.get?, ← hsome]
    contains_iff := fun n => by
      rw [contains, ← hnone, Option.isSome_iff_ne_none]
    lookups := fun n => ⟨rfl, rfl⟩
    returned := fun n values =>
      ⟨recordOf?_recordFor_self, recordOf?_apply.trans recordOf?_recordFor_self⟩
    fresh := ⟨hkept.unmade _ (Nat.le_refl _), fun n hr =>
      Nat.lt_irrefl _ (hkept.lt_of_recordOf? hr)⟩
    others := fun a n ha => recordOf?_act_of_ne ha
    contents := fun a r hr => record_act hr
    unshared := fun n halone a ha hset => by
      refine agree_of_record (recordOf?_act_of_ne ha) fun r hr => ?_
      by_contra hchanged
      rcases record_act (hkept.lt_of_recordOf? hr) hchanged with
        ⟨hint, value, rfl⟩ | ⟨m, values, rfl, hm⟩
      · exact hset r hint value rfl hr
      · exact halone m r (ha m rfl) hr hm
    undisturbed := fun n r hholds helsewhere later hlater => by
      simp only [← hsome] at hholds helsewhere
      exact Alone.agree ⟨hholds, helsewhere, hkept.lt_of_recordOf? hholds⟩ hlater
    size_eq := by simpa only [hsome] using hkept.size_eq }

/-- A scan of the orders under an identity. -/
def ordersScan (id : Nat) : Plan := .scan id "orders" [⟨"id", .integer, false⟩]

/-- Calls about three nodes that look the same. One gets a record of its own, two share one until
the first of them is discarded and asked for again, and the hints that are applied name one that
there is not. -/
def sharedCalls : List Action :=
  [.newRecord, .attach (ordersScan 1) 0, .hintsFor (ordersScan 2), .attach (ordersScan 3) 0,
    .set 0 .keyCardinality (.int 10),
    .apply (ordersScan 2) [("key_cardinality", .int 99), ("rows", .int 1)],
    .discard (ordersScan 1), .get (ordersScan 1), .hintsFor (ordersScan 1)]

theorem sharedCalls_faithful :
    Possible {} sharedCalls ∧ Faithful sharedCalls (after sharedCalls) := by
  have hpossible : Possible {} sharedCalls := by
    simp only [sharedCalls, Possible, Action.record?, Option.mem_some_iff, forall_eq',
      Option.not_mem_none, false_implies, implies_true, true_and, and_true]
    decide
  exact ⟨hpossible, after_faithful hpossible⟩

example : [1, 2, 3, 4].map (fun id => (after sharedCalls).recordOf? (ordersScan id)) =
    [some 2, some 1, some 0, none] := by decide +kernel

end HintRegistry

end Semijoin
