import Semijoin.Hints.Registry

/-!
# What a registry keeps

A registry knows nodes by their identities and records by identities of its own. `Made` lists how
registries come about. All the identities in them were drawn before, so a node built later has no
record, and the hints that it is given then do not show at any other node.
-/

namespace Semijoin

section PutAt

variable {α : Type} {xs : List (Nat × α)} {key : Nat} {value : α}

theorem lookup_putAt (xs : List (Nat × α)) (key : Nat) (value : α) (k : Nat) :
    (putAt xs key value).lookup k = if k = key then some value else xs.lookup k := by
  fun_induction putAt xs key value with
  | case1 | case2 =>
    simp only [List.lookup_cons, List.lookup_nil]
    grind
  | case3 _ _ _ _ ih =>
    simp only [List.lookup_cons, ih]
    grind

theorem mem_of_mem_putAt {e : Nat × α} (h : e ∈ putAt xs key value) :
    e = (key, value) ∨ e ∈ xs := by
  fun_induction putAt xs key value <;> grind

end PutAt

namespace HintRegistry

variable {g g' g'' : HintRegistry} {next r : Nat} {m n : Plan}

/-- Only nodes built before the supply reached `next` have a record, and every record is one that
the registry has made. -/
structure Valid (next : Nat) (g : HintRegistry) : Prop where
  nodes : ∀ e ∈ g.entries, e.1 < next
  records : ∀ e ∈ g.entries, e.2 < g.nextRecord

/-- Registries that the operations make, while the supply of identities for nodes moves on. -/
inductive Made : Nat → HintRegistry → Prop where
  | empty (next : Nat) : Made next {}
  | build {next next' : Nat} {g : HintRegistry} (h : Made next g) (hle : next ≤ next') :
      Made next' g
  | newRecord {next : Nat} {g : HintRegistry} (h : Made next g) : Made next g.newRecord.2
  | attach {next r : Nat} {g : HintRegistry} {n : Plan} (h : Made next g) (hn : n.id < next)
      (hr : r < g.nextRecord) : Made next (g.attach n r)
  | recordFor {next : Nat} {g : HintRegistry} {n : Plan} (h : Made next g) (hn : n.id < next) :
      Made next (g.recordFor n).2
  | discard {next : Nat} {g : HintRegistry} (h : Made next g) (n : Plan) : Made next (g.discard n)
  | set {next r : Nat} {g g' : HintRegistry} {hint : Hint} {value : Value} (h : Made next g)
      (hset : g.set r hint value = .ok g') : Made next g'
  | apply {next : Nat} {g : HintRegistry} {n : Plan} (h : Made next g) (hn : n.id < next)
      (values : List (Text × Value)) : Made next (g.apply n values).2.registry

/-- The node has the same record in both registries, with the same hints. -/
structure Agree (g g' : HintRegistry) (n : Plan) : Prop where
  recordOf? : g'.recordOf? n = g.recordOf? n
  get? : g'.get? n = g.get? n

/-- Nothing but the contents of one record differs. -/
structure Writes (r : Nat) (g g' : HintRegistry) : Prop where
  entries : g'.entries = g.entries
  nextRecord : g'.nextRecord = g.nextRecord
  record : ∀ r', r' ≠ r → g'.record r' = g.record r'

theorem mem_entries_of_recordOf? (h : g.recordOf? n = some r) : (n.id, r) ∈ g.entries := by
  obtain ⟨before, after, hentries, -⟩ := List.lookup_eq_some_iff.1 h
  simp [hentries]

theorem Agree.refl (g : HintRegistry) (n : Plan) : g.Agree g n := ⟨rfl, rfl⟩

theorem Agree.trans (h : g.Agree g' n) (h' : g'.Agree g'' n) : g.Agree g'' n :=
  ⟨h'.recordOf?.trans h.recordOf?, h'.get?.trans h.get?⟩

theorem agree_of_record (hrecord : g'.recordOf? n = g.recordOf? n)
    (hsame : ∀ r ∈ g.recordOf? n, g'.record r = g.record r) : g.Agree g' n := by
  refine ⟨hrecord, ?_⟩
  rw [HintRegistry.get?, HintRegistry.get?, hrecord]
  exact Option.map_congr hsame

/-! ## Writing hints -/

theorem Writes.refl (r : Nat) (g : HintRegistry) : Writes r g g := ⟨rfl, rfl, fun _ _ => rfl⟩

theorem Writes.trans (h : Writes r g g') (h' : Writes r g' g'') : Writes r g g'' :=
  ⟨h'.entries.trans h.entries, h'.nextRecord.trans h.nextRecord,
    fun r' hr => (h'.record r' hr).trans (h.record r' hr)⟩

theorem writes_set {hint : Hint} {value : Value} (h : g.set r hint value = .ok g') :
    Writes r g g' := by
  unfold set at h
  cases hset : (g.record r).set hint value with
  | error e => simp [hset, Except.map] at h
  | ok record =>
    obtain rfl : { g with records := putAt g.records r record } = g' := by
      simpa [hset, Except.map] using h
    refine ⟨rfl, rfl, fun r' hr => ?_⟩
    simp [HintRegistry.record, lookup_putAt, hr]

/-- Whether or not a value is refused, only the record is written to. -/
theorem writes_setAll (g : HintRegistry) (node : Plan) (r : Nat) (values : List (Text × Value)) :
    Writes r g (g.setAll node r values).registry := by
  fun_induction setAll g node r values with
  | case3 _ _ _ _ _ _ _ hset ih => exact (writes_set hset).trans ih
  | case1 | case2 | case4 | case5 | case6 => exact .refl _ _

theorem Writes.agree (h : Writes r g g') (hn : r ∉ g.recordOf? n) : g.Agree g' n := by
  refine agree_of_record ?_ fun r' hr => h.record r' ?_
  · simp only [HintRegistry.recordOf?, h.entries]
  · rintro rfl
    exact hn hr

/-! ## Valid registries -/

namespace Valid

theorem writes (h : g.Valid next) (hw : Writes r g g') : g'.Valid next := by
  refine ⟨?_, ?_⟩
  · rw [hw.entries]
    exact h.nodes
  · rw [hw.entries, hw.nextRecord]
    exact h.records

theorem newRecord (h : g.Valid next) : g.newRecord.2.Valid next :=
  ⟨h.nodes, fun e he => Nat.lt_succ_of_lt (h.records e he)⟩

theorem attach (h : g.Valid next) (hn : n.id < next) (hr : r < g.nextRecord) :
    (g.attach n r).Valid next := by
  refine ⟨fun e he => ?_, fun e he => ?_⟩
  · rcases mem_of_mem_putAt he with rfl | he
    · exact hn
    · exact h.nodes e he
  · rcases mem_of_mem_putAt he with rfl | he
    · exact hr
    · exact h.records e he

theorem recordFor (h : g.Valid next) (hn : n.id < next) : (g.recordFor n).2.Valid next := by
  unfold HintRegistry.recordFor
  split
  · exact h
  · exact h.newRecord.attach hn (Nat.lt_succ_self _)

/-- A node that was not built yet has no record. -/
theorem recordOf?_eq_none (h : g.Valid next) (hn : next ≤ n.id) : g.recordOf? n = none :=
  List.lookup_eq_none_iff.2 fun e he => bne_iff_ne.2 fun heq =>
    absurd (h.nodes e he) (by omega)

theorem lt_of_recordOf? (h : g.Valid next) (hr : r ∈ g.recordOf? n) : r < g.nextRecord :=
  h.records _ (mem_entries_of_recordOf? hr)

/-- Hints that a new node is given do not show at the nodes that were there. -/
theorem agree_apply (h : g.Valid next) (hm : next ≤ m.id) (hn : n.id < next)
    (values : List (Text × Value)) : g.Agree (g.apply m values).2.registry n := by
  have hnone : g.recordOf? m = none := h.recordOf?_eq_none hm
  have hfresh : ∀ r ∈ g.recordOf? n, r ≠ g.nextRecord := fun r hr =>
    Nat.ne_of_lt (h.lt_of_recordOf? hr)
  have hne : n.id ≠ m.id := by omega
  have hrecordFor : g.recordFor m = (g.nextRecord, g.newRecord.2.attach m g.nextRecord) := by
    simp [HintRegistry.recordFor, hnone, HintRegistry.newRecord]
  have hattached : g.Agree (g.newRecord.2.attach m g.nextRecord) n := by
    refine agree_of_record ?_ fun r hr => ?_
    · simp [HintRegistry.recordOf?, HintRegistry.attach, HintRegistry.newRecord, lookup_putAt, hne]
    · simp [HintRegistry.record, HintRegistry.attach, HintRegistry.newRecord, lookup_putAt,
        hfresh r hr]
  simp only [HintRegistry.apply, hrecordFor]
  refine hattached.trans ((writes_setAll _ _ _ _).agree fun hr => ?_)
  rw [hattached.recordOf?] at hr
  exact hfresh _ hr rfl

end Valid

theorem Made.valid (h : Made next g) : g.Valid next := by
  induction h with
  | empty => exact ⟨by simp, by simp⟩
  | build _ hle ih => exact ⟨fun e he => Nat.lt_of_lt_of_le (ih.nodes e he) hle, ih.records⟩
  | newRecord _ ih => exact ih.newRecord
  | attach _ hn hr ih => exact ih.attach hn hr
  | recordFor _ hn ih => exact ih.recordFor hn
  | discard _ n ih =>
    exact ⟨fun e he => ih.nodes e (List.mem_filter.1 he).1,
      fun e he => ih.records e (List.mem_filter.1 he).1⟩
  | set _ hset ih => exact ih.writes (writes_set hset)
  | apply _ hn values ih => exact (ih.recordFor hn).writes (writes_setAll _ _ _ _)

end HintRegistry

end Semijoin
