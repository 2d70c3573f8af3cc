import Semijoin.Proofs.Built
import Semijoin.Proofs.History
import Semijoin.Proofs.Setters

/-!
# Hints applied to a node

Several hints are set in order, and the first entry that is refused ends it: the entries before it
stay set, and nothing else is touched. What the caller is told is the error of that entry, except
that a refusal is logged with the label of the node, and a label can hold an integer that is too
long to be written.
-/

namespace Semijoin

theorem Hint.ofName?_eq_some_iff {t : Text} {hint : Hint} :
    Hint.ofName? t = some hint ↔ t = hint.name := by
  constructor
  · intro h
    simpa using List.find?_some h
  · rintro rfl
    cases hint <;> decide

theorem Hint.ofName?_eq_none_iff {t : Text} :
    Hint.ofName? t = none ↔ ∀ hint : Hint, t ≠ hint.name := by
  simp only [Option.eq_none_iff_forall_ne_some, ne_eq, Hint.ofName?_eq_some_iff]

/-- The entry that sets a hint to a value. -/
def Hint.entry (call : Hint × Value) : Text × Value := (call.1.name, call.2)

/-- What the caller of a setter is told. A refusal whose message cannot be written is a failure to
write it. -/
def ApplyError.ofSetter (e : HintError) : ApplyError := if e.isWritable then .hint e else .tooLong

/-! ## Refusals -/

namespace HintRecord

variable {r : HintRecord} {hint : Hint} {value : Value} {e : HintError}

/-- Whether a value is refused, and how, does not depend on the record. -/
theorem set_eq_error_iff : r.set hint value = .error e ↔
    quantity hint value = .error e ∨
      ∃ q, quantity hint value = .ok q ∧ hint = .keyCardinality ∧ isWhole value q = false ∧
        e = .invalid hint value .notWhole := by
  unfold set
  cases hquantity : quantity hint value with
  | error e' => simp [Bind.bind, Except.bind]
  | ok q =>
    cases hint with
    | keyCardinality =>
      by_cases hwhole : isWhole value q
      · simp [Bind.bind, Except.bind, pure, Except.pure, hwhole]
      · simp [Bind.bind, Except.bind, throw, throwThe, MonadExceptOf.throw, hwhole,
          eq_comm (a := e)]
    | valuesPerKey | bytesPerRecord | recordsPerCall =>
      simp [Bind.bind, Except.bind, pure, Except.pure]

theorem set_eq_error_of_set (h : r.set hint value = .error e) (r' : HintRecord) :
    r'.set hint value = .error e :=
  set_eq_error_iff.2 (set_eq_error_iff.1 h)

theorem quantity_eq_error (h : quantity hint value = .error e) :
    e = .tooLarge ∨ ∃ fault, e = .invalid hint value fault := by
  unfold quantity at h
  grind

/-- A setter that refuses a value names its hint and the value. -/
theorem set_eq_error (h : r.set hint value = .error e) :
    e = .tooLarge ∨ ∃ fault, e = .invalid hint value fault := by
  rcases set_eq_error_iff.1 h with hquantity | ⟨q, -, -, -, rfl⟩
  · exact quantity_eq_error hquantity
  · exact .inr ⟨.notWhole, rfl⟩

/-- Whether the setter of a hint refuses a value. -/
def refuses (hint : Hint) (value : Value) : Bool :=
  match ({} : HintRecord).set hint value with
  | .ok _ => false
  | .error _ => true

theorem refuses_of_ok {r' : HintRecord} (h : r.set hint value = .ok r') :
    refuses hint value = false := by
  unfold refuses
  split
  · rfl
  · rename_i hset
    exact nomatch h.symm.trans (set_eq_error_of_set hset r)

theorem refuses_of_error (h : r.set hint value = .error e) : refuses hint value = true := by
  simp only [refuses, set_eq_error_of_set h {}]

/-- Sets hints in order. -/
def setEach (r : HintRecord) (calls : List (Hint × Value)) : Except HintError HintRecord :=
  calls.foldlM (fun r call => r.set call.1 call.2) r

theorem setEach_cons {r' : HintRecord} (h : r.set hint value = .ok r')
    (calls : List (Hint × Value)) : r.setEach ((hint, value) :: calls) = r'.setEach calls := by
  simp only [setEach, List.foldlM_cons, h]
  rfl

end HintRecord

namespace HintRegistry

/-! ## The first entry that is refused -/

/-- Whether an entry names no hint or has a value that its setter refuses. -/
def isRefused (entry : Text × Value) : Bool :=
  match Hint.ofName? entry.1 with
  | none => true
  | some hint => HintRecord.refuses hint entry.2

/-- The position of the first entry that is refused; if there is none, the number of entries. -/
def firstRefused (values : List (Text × Value)) : Nat := values.findIdx isRefused

variable {g g' : HintRegistry} {n : Plan} {r : Nat} {hint : Hint} {value : Value}
  {values : List (Text × Value)}

theorem set_eq_ok (h : g.set r hint value = .ok g') :
    (g.record r).set hint value = .ok (g'.record r) := by
  unfold set at h
  cases hset : (g.record r).set hint value with
  | error e => simp [hset, Except.map] at h
  | ok record =>
    obtain rfl : { g with records := putAt g.records r record } = g' := by
      simpa [hset, Except.map] using h
    simp [HintRegistry.record, lookup_putAt]

theorem set_eq_error {e : HintError} (h : g.set r hint value = .error e) :
    (g.record r).set hint value = .error e := by
  unfold set at h
  cases hset : (g.record r).set hint value <;> simp_all [Except.map]

/-- The entries before the first one refused are set in order. -/
theorem exists_setEach_setAll (g : HintRegistry) (n : Plan) (r : Nat)
    (values : List (Text × Value)) : ∃ calls : List (Hint × Value),
      values.take (firstRefused values) = calls.map Hint.entry ∧
        (g.record r).setEach calls = .ok ((g.setAll n r values).registry.record r) := by
  fun_induction setAll g n r values with
  | case1 => exact ⟨[], rfl, rfl⟩
  | case2 g name value rest hname =>
    exact ⟨[], by simp [firstRefused, List.findIdx_cons, isRefused, hname], rfl⟩
  | case3 g name value rest hint hname g' hset ih =>
    obtain ⟨calls, hcalls, heach⟩ := ih
    have hrecord := set_eq_ok hset
    obtain rfl := Hint.ofName?_eq_some_iff.1 hname
    have htaken : isRefused (↑hint.name, value) = false := by
      simp only [isRefused, hname, HintRecord.refuses_of_ok hrecord]
    refine ⟨(hint, value) :: calls, ?_, (HintRecord.setEach_cons hrecord calls).trans heach⟩
    simp only [firstRefused, List.findIdx_cons, htaken, cond_false, List.take_succ_cons,
      List.map_cons, Hint.entry]
    exact congrArg _ hcalls
  | case4 g name value rest hint hname hset | case5 g name value rest hint hname e _ hset
  | case6 g name value rest hint hname e _ hset =>
    have hrefused : isRefused (name, value) = true := by
      simp only [isRefused, hname, HintRecord.refuses_of_error (set_eq_error hset)]
    exact ⟨[], by simp [firstRefused, List.findIdx_cons, hrefused], rfl⟩

/-- The error with which applying hints to a node ends when a setter has failed. -/
def told (n : Plan) : HintError → ApplyError
  | .tooLarge => .hint .tooLarge
  | .invalid hint value fault =>
    if (HintError.invalid hint value fault).isWritable && n.hasWritableLabel then
      .hint (.invalid hint value fault)
    else .tooLong

theorem told_of_ne {e : HintError} (h : e ≠ .tooLarge) :
    told n e = if e.isWritable && n.hasWritableLabel then .hint e else .tooLong := by
  cases e with
  | tooLarge => exact absurd rfl h
  | invalid => rfl

/-- The error that comes of an entry, if it is refused. -/
def refusal (n : Plan) (entry : Text × Value) : Option ApplyError :=
  match Hint.ofName? entry.1 with
  | none => some (.unknownHint entry.1)
  | some hint =>
    match ({} : HintRecord).set hint entry.2 with
    | .ok _ => none
    | .error e => some (told n e)

theorem refusal_of_ofName? {name : Text} (h : Hint.ofName? name = none) :
    refusal n (name, value) = some (.unknownHint name) := by
  simp only [refusal, h]

theorem refusal_of_set {record : HintRecord} {e : HintError}
    (h : record.set hint value = .error e) :
    refusal n (Hint.entry (hint, value)) = some (told n e) := by
  have hname : Hint.ofName? (hint.name : Text) = some hint := Hint.ofName?_eq_some_iff.2 rfl
  simp only [refusal, Hint.entry, hname, HintRecord.set_eq_error_of_set h {}]

theorem told_ne_unknownHint (n : Plan) (e : HintError) (name : Text) :
    told n e ≠ .unknownHint name := by
  cases e with
  | tooLarge => simp [told]
  | invalid => simp only [told]; split <;> simp

theorem refusal_eq_unknownHint_iff {name : Text} {entry : Text × Value} :
    refusal n entry = some (.unknownHint name) ↔
      entry.1 = name ∧ ∀ hint : Hint, entry.1 ≠ hint.name := by
  rw [← Hint.ofName?_eq_none_iff, refusal]
  cases Hint.ofName? entry.1 with
  | none => simp
  | some hint =>
    cases hset : ({} : HintRecord).set hint entry.2 <;> simp [hset, told_ne_unknownHint]

theorem isRefused_iff (n : Plan) (entry : Text × Value) :
    isRefused entry = (refusal n entry).isSome := by
  unfold isRefused refusal HintRecord.refuses
  grind

/-- The error is that of the first entry refused. -/
theorem error_setAll (g : HintRegistry) (n : Plan) (r : Nat) (values : List (Text × Value)) :
    (g.setAll n r values).error = (values[firstRefused values]?).bind (refusal n) := by
  have hrefused {entry : Text × Value} {e : ApplyError} (rest : List (Text × Value))
      (h : refusal n entry = some e) :
      ((entry :: rest)[firstRefused (entry :: rest)]?).bind (refusal n) = some e := by
    have hfirst : isRefused entry = true := by rw [isRefused_iff n, h]; rfl
    simp [firstRefused, List.findIdx_cons, hfirst, h]
  fun_induction setAll g n r values with
  | case1 => rfl
  | case2 g name value rest hname => exact (hrefused rest (refusal_of_ofName? hname)).symm
  | case3 g name value rest hint hname g' hset ih =>
    have htaken : isRefused (name, value) = false := by
      simp only [isRefused, hname, HintRecord.refuses_of_ok (set_eq_ok hset)]
    simpa [firstRefused, List.findIdx_cons, htaken] using ih
  | case4 g name value rest hint hname hset =>
    obtain rfl := Hint.ofName?_eq_some_iff.1 hname
    exact (hrefused rest (refusal_of_set (set_eq_error hset))).symm
  | case5 g name value rest hint hname e hlarge hset hshown =>
    obtain rfl := Hint.ofName?_eq_some_iff.1 hname
    have htold : told n e = .hint e := by rw [told_of_ne hlarge, if_pos hshown]
    exact htold ▸ (hrefused rest (refusal_of_set (set_eq_error hset))).symm
  | case6 g name value rest hint hname e hlarge hset hhidden =>
    obtain rfl := Hint.ofName?_eq_some_iff.1 hname
    have htold : told n e = .tooLong := by rw [told_of_ne hlarge, if_neg hhidden]
    exact htold ▸ (hrefused rest (refusal_of_set (set_eq_error hset))).symm

theorem isRefused_of_firstRefused {entry : Text × Value}
    (h : values[firstRefused values]? = some entry) : isRefused entry = true := by
  obtain ⟨hlt, hentry⟩ := List.getElem?_eq_some_iff.1 h
  exact hentry ▸ List.findIdx_getElem

theorem exists_refusal {entry : Text × Value} (n : Plan)
    (h : values[firstRefused values]? = some entry) : ∃ e, refusal n entry = some e := by
  rw [← Option.isSome_iff_exists, ← isRefused_iff]
  exact isRefused_of_firstRefused h

/-- If the first entry refused names a hint, then the setter of the hint refuses the value. -/
theorem exists_set_eq_error (h : values[firstRefused values]? = some (Hint.entry (hint, value)))
    (record : HintRecord) : ∃ e, record.set hint value = .error e := by
  have hrefused := isRefused_of_firstRefused h
  have hname : Hint.ofName? (hint.name : Text) = some hint := Hint.ofName?_eq_some_iff.2 rfl
  cases hset : record.set hint value with
  | error e => exact ⟨e, rfl⟩
  | ok record' => simp [isRefused, Hint.entry, hname, HintRecord.refuses_of_ok hset] at hrefused

theorem firstRefused_eq_length_iff :
    firstRefused values = values.length ↔ values[firstRefused values]? = none := by
  have hle : firstRefused values ≤ values.length := List.findIdx_le_length
  rw [List.getElem?_eq_none_iff]
  omega

/-! ## What applying hints comes to -/

/-- Hints applied to a node set the entries before the first one refused, and nothing else. -/
structure SetsPrefix (g : HintRegistry) (n : Plan) (values : List (Text × Value)) : Prop where
  /-- The record that is returned belongs to the node: it is the one that the node had, or one that
  is new and belongs to no node. -/
  belongs : (g.apply n values).2.registry.recordOf? n = some (g.apply n values).1
  had : ∀ r, g.recordOf? n = some r → (g.apply n values).1 = r
  new : g.recordOf? n = none →
    (g.apply n values).1 = g.nextRecord ∧ ∀ m, g.recordOf? m ≠ some g.nextRecord
  /-- In it are the hints that the node had, or the defaults, with those entries set in order. -/
  sets : ∃ calls : List (Hint × Value),
    values.take (firstRefused values) = calls.map Hint.entry ∧
      ((g.get? n).getD {}).setEach calls =
        .ok ((g.apply n values).2.registry.record (g.apply n values).1)
  others : ∀ m, m.id ≠ n.id → (g.apply n values).2.registry.recordOf? m = g.recordOf? m
  records : ∀ r, r ≠ (g.apply n values).1 → (g.apply n values).2.registry.record r = g.record r
  /-- There is no error if no entry is refused, and only then. -/
  returns_iff : (g.apply n values).2.error = none ↔ firstRefused values = values.length
  /-- An unknown hint is reported if the first entry refused names no hint, and only then. -/
  unknown_iff : ∀ name, (g.apply n values).2.error = some (.unknownHint name) ↔
    ∃ value, values[firstRefused values]? = some (name, value) ∧ ∀ hint : Hint, name ≠ hint.name

/-- If the first entry refused names a hint, then the error is the one that its setter ends with on
the record as it is by then, and a refusal is about that hint and value. -/
def Raises (g : HintRegistry) (n : Plan) (values : List (Text × Value)) : Prop :=
  ∀ hint value, values[firstRefused values]? = some (Hint.entry (hint, value)) →
    ∃ e, ((g.apply n values).2.registry.record (g.apply n values).1).set hint value = .error e ∧
      (g.apply n values).2.error = some (.ofSetter e) ∧
      ∀ hint' value' fault, e = .invalid hint' value' fault → hint' = hint ∧ value' = value

/-- The first entry refused is refused for its value, in a message that can be written, but the
label of the node cannot be. -/
def Unreportable (n : Plan) (values : List (Text × Value)) : Prop :=
  n.hasWritableLabel = false ∧ ∃ hint value fault,
    values[firstRefused values]? = some (Hint.entry (hint, value)) ∧
      ({} : HintRecord).set hint value = .error (.invalid hint value fault) ∧
      (HintError.invalid hint value fault).isWritable = true

theorem error_apply (g : HintRegistry) (n : Plan) (values : List (Text × Value)) :
    (g.apply n values).2.error = (values[firstRefused values]?).bind (refusal n) :=
  error_setAll _ _ _ _

/-- The record that hints are applied to has the hints of the node in it, or the defaults. -/
theorem record_recordFor_self (g : HintRegistry) (n : Plan) :
    (g.recordFor n).2.record (g.recordFor n).1 = (g.get? n).getD {} := by
  unfold recordFor get?
  cases h : g.recordOf? n with
  | some r => rfl
  | none => simp [newRecord, attach, record, lookup_putAt]

theorem setsPrefix {g : HintRegistry} (hg : g.Kept) (n : Plan) (values : List (Text × Value)) :
    g.SetsPrefix n values where
  belongs := recordOf?_apply.trans recordOf?_recordFor_self
  had r hr := by simp only [apply, recordFor, hr]
  new hnone := by
    refine ⟨by simp only [apply, recordFor, hnone]; rfl, fun m hm => ?_⟩
    exact Nat.lt_irrefl _ (hg.lt_of_recordOf? hm)
  sets := by
    obtain ⟨calls, hcalls, heach⟩ :=
      exists_setEach_setAll (g.recordFor n).2 n (g.recordFor n).1 values
    rw [record_recordFor_self] at heach
    exact ⟨calls, hcalls, heach⟩
  others m hm := by rw [recordOf?_apply, recordOf?_recordFor, if_neg hm]
  records r hr := by
    have hwrites := (writes_setAll (g.recordFor n).2 n (g.recordFor n).1 values).record r hr
    refine hwrites.trans ?_
    cases hrecord : g.recordOf? n with
    | some r' => simp only [recordFor, hrecord]
    | none =>
      have hfor : (g.recordFor n).1 = g.nextRecord := by simp only [recordFor, hrecord]; rfl
      exact record_recordFor (hfor ▸ hr)
  returns_iff := by
    rw [error_apply, firstRefused_eq_length_iff]
    cases hentry : values[firstRefused values]? with
    | none => simp
    | some entry =>
      obtain ⟨e, he⟩ := exists_refusal n hentry
      simp [he]
  unknown_iff name := by
    rw [error_apply, Option.bind_eq_some_iff]
    simp only [refusal_eq_unknownHint_iff]
    constructor
    · rintro ⟨⟨_, value⟩, hentry, rfl, hname⟩
      exact ⟨value, hentry, hname⟩
    · rintro ⟨value, hentry, hname⟩
      exact ⟨_, hentry, rfl, hname⟩

/-- The error is that of the setter, unless the label of the node gets in its way. -/
theorem raises_iff (g : HintRegistry) (n : Plan) (values : List (Text × Value)) :
    g.Raises n values ↔ ¬ Unreportable n values := by
  constructor
  · rintro hraises ⟨hlabel, hint, value, fault, hentry, hset, hwritable⟩
    obtain ⟨e, he, herror, -⟩ := hraises hint value hentry
    obtain rfl : e = .invalid hint value fault :=
      Except.error.inj (he.symm.trans (HintRecord.set_eq_error_of_set hset _))
    rw [error_apply, hentry, Option.bind_some, refusal_of_set hset] at herror
    simp [told, hlabel, ApplyError.ofSetter, hwritable] at herror
  · intro hreportable hint value hentry
    obtain ⟨e, hset⟩ := exists_set_eq_error hentry
      ((g.apply n values).2.registry.record (g.apply n values).1)
    have herror : (g.apply n values).2.error = some (told n e) := by
      rw [error_apply, hentry, Option.bind_some, refusal_of_set hset]
    rcases HintRecord.set_eq_error hset with rfl | ⟨fault, rfl⟩
    · exact ⟨_, hset, herror, fun _ _ _ h => nomatch h⟩
    · refine ⟨_, hset, herror.trans ?_, fun _ _ _ h => ?_⟩
      · by_cases hwritable : (HintError.invalid hint value fault).isWritable
        · have hlabel : n.hasWritableLabel = true := by
            by_contra hlabel
            exact hreportable ⟨Bool.eq_false_iff.2 hlabel, hint, value, fault, hentry,
              HintRecord.set_eq_error_of_set hset {}, hwritable⟩
          simp [told, ApplyError.ofSetter, hwritable, hlabel]
        · simp [told, ApplyError.ofSetter, hwritable]
      · cases h
        exact ⟨rfl, rfl⟩

theorem error_of_unreportable (h : Unreportable n values) :
    (g.apply n values).2.error = some .tooLong := by
  obtain ⟨hlabel, hint, value, fault, hentry, hset, -⟩ := h
  rw [error_apply, hentry, Option.bind_some, refusal_of_set hset]
  simp [told, hlabel]

/-- Hints that are applied to a node of a registry are set up to the first entry refused, and the
error is that of this entry unless the label of the node cannot be written. -/
theorem apply_setsPrefix {calls : List Action} (h : Possible {} calls) (n : Plan)
    (values : List (Text × Value)) :
    (after calls).SetsPrefix n values ∧
      ((after calls).Raises n values ↔ ¬ Unreportable n values) ∧
      (Unreportable n values → ((after calls).apply n values).2.error = some .tooLong) :=
  ⟨setsPrefix (kept_after h) n values, raises_iff _ n values, error_of_unreportable⟩

/-- Entries the second of which has a value that is no number. -/
def mixedEntries : List (Text × Value) :=
  [("avg_values_per_key", .int 2), ("key_cardinality", .str "many"), ("rows", .int 3)]

theorem mixedEntries_setsPrefix :
    Possible {} [.hintsFor (ordersScan 1)] ∧
      (after [.hintsFor (ordersScan 1)]).SetsPrefix (ordersScan 1) mixedEntries ∧
      (after [.hintsFor (ordersScan 1)]).Raises (ordersScan 1) mixedEntries := by
  have hpossible : Possible {} [.hintsFor (ordersScan 1)] := by simp [Possible, Action.record?]
  obtain ⟨hsets, hraises, -⟩ := apply_setsPrefix hpossible (ordersScan 1) mixedEntries
  exact ⟨hpossible, hsets, hraises.2 fun h => absurd h.1 (by decide)⟩

example : firstRefused mixedEntries = 1 := by decide +kernel

/-- A filter whose predicate has a number in it of more digits than can be written. -/
def longFilter : Plan :=
  .filter 1 (ordersScan 0)
    (.bin .eq (.col ⟨0, .integer, false, some "id"⟩) (.lit ⟨0, .fraction (10 ^ 5000), .integer⟩))

/-- The refusal of a value for such a node does not reach the caller. -/
theorem longFilter_unreported :
    longFilter.Checked ∧
      (({} : HintRegistry).apply longFilter [("key_cardinality", .str "many")]).2.error =
        some .tooLong ∧
      ¬ ({} : HintRegistry).Raises longFilter [("key_cardinality", .str "many")] := by
  have hunreportable : Unreportable longFilter [("key_cardinality", .str "many")] :=
    ⟨by decide +kernel, .keyCardinality, .str "many", .notANumber, rfl, rfl, rfl⟩
  refine ⟨?_, error_of_unreportable hunreportable, fun h => (raises_iff _ _ _).1 h hunreportable⟩
  simp only [longFilter, ordersScan, Plan.Checked, Plan.all_filter, Plan.all_scan]
  exact ⟨rfl, rfl⟩

end HintRegistry

end Semijoin
