import Semijoin.Hints.Record
import Semijoin.Proofs.Rounding

/-!
# Setters of hint records

A setter takes any value, and what it stores is derived from tests made on that value: a number of
keys is the exact value, an average the double that it converts to. Whatever values setters are
called with, a record stays `Sane`, and so the rows that it implies can always be computed.
-/

namespace Semijoin

/-- The values that a hint can have: whole numbers of keys and finite averages, none below zero. -/
def Hint.Takes : Hint → Value → Prop
  | keyCardinality, v => ∃ n : Int, v = .int n ∧ 0 ≤ n
  | valuesPerKey, v | bytesPerRecord, v | recordsPerCall, v =>
    ∃ x q, v = .float x ∧ x.IsDouble ∧ x.toRat? = some q ∧ 0 ≤ q

namespace HintRecord

/-- The record after a call of a setter. If the value is refused it is what it was. -/
def attempt (r : HintRecord) (call : Hint × Value) : HintRecord :=
  match r.set call.1 call.2 with
  | .ok r' => r'
  | .error _ => r

/-- The record that calls of its setters make of a new one. -/
def afterCalls (calls : List (Hint × Value)) : HintRecord := calls.foldl attempt {}

/-- Every hint that is known has a value of its kind, the records per call are known, and the number
of keys is in the range of the doubles. -/
structure Sane (r : HintRecord) : Prop where
  takes : ∀ hint v, r.get? hint = some v → hint.Takes v
  known : ∃ v, r.get? .recordsPerCall = some v
  keys : ∀ k, r.get? .keyCardinality = some (.int k) → ∃ x, Binary64.ofInt? k = some x

/-- What a setter stores for a quantity. -/
def stored (q : Quantity) : Hint → Value
  | .keyCardinality => .int ⌊q.exact⌋
  | .valuesPerKey | .bytesPerRecord | .recordsPerCall => .float q.double

section Quantities

variable {r r' : HintRecord} {hint other : Hint} {value : Value} {q : Quantity}

/-- A quantity is an exact number that converts to a double, or it is a double already. -/
theorem quantity_cases (h : quantity hint value = .ok q) :
    0 ≤ q.exact ∧ (Binary64.ofRat? q.exact = some q.double ∨
      (value = .float q.double ∧ q.double.toRat? = some q.exact)) := by
  unfold quantity at h
  split at h
  case h_3 x =>
    cases hx : x.toRat? with
    | none => simp [hx] at h
    | some p =>
      by_cases hneg : p < 0
      · simp [hx, hneg] at h
      · obtain rfl : (⟨p, x⟩ : Quantity) = q := by simpa [hx, hneg] using h
        exact ⟨not_lt.1 hneg, .inr ⟨rfl, hx⟩⟩
  case h_1 | h_2 =>
    dsimp only at h
    split at h
    · simp at h
    · rename_i p x hx
      split at h
      · simp at h
      · rename_i hneg
        obtain rfl := Except.ok.inj h
        exact ⟨not_lt.1 hneg, .inl hx⟩
  case h_4 => simp at h

/-- The double of a quantity is a number not below zero. -/
theorem nonneg_of_quantity (h : quantity hint value = .ok q) :
    ∃ d, q.double.toRat? = some d ∧ 0 ≤ d := by
  obtain ⟨hexact, hconverts | ⟨-, hfloat⟩⟩ := quantity_cases h
  · exact ⟨_, Binary64.toRat?_of_ofRat? hconverts, Binary64.roundValue_nonneg hexact⟩
  · exact ⟨_, hfloat, hexact⟩

theorem isDouble_of_quantity (h : quantity hint value = .ok q)
    (hdouble : ∀ x, value = .float x → x.IsDouble) : q.double.IsDouble := by
  obtain ⟨hexact, hconverts | ⟨hvalue, -⟩⟩ := quantity_cases h
  · exact Binary64.isDouble_of_ofRat? hexact hconverts
  · exact hdouble _ hvalue

/-- A quantity is in the range of the doubles. -/
theorem exists_ofRat?_of_quantity (h : quantity hint value = .ok q)
    (hdouble : ∀ x, value = .float x → x.IsDouble) : ∃ x, Binary64.ofRat? q.exact = some x := by
  obtain ⟨-, hconverts | ⟨hvalue, hexact⟩⟩ := quantity_cases h
  · exact ⟨_, hconverts⟩
  · exact (hdouble _ hvalue).exists_ofRat? hexact

/-- A setter that returns stores what comes of the quantity and touches no other hint. -/
theorem get?_set (h : r.set hint value = .ok r') :
    (∃ q, quantity hint value = .ok q ∧ r'.get? hint = some (stored q hint)) ∧
      ∀ other, other ≠ hint → r'.get? other = r.get? other := by
  unfold set at h
  cases hquantity : quantity hint value with
  | error e => simp [hquantity, Bind.bind, Except.bind] at h
  | ok q =>
    have hexact : 0 ≤ q.exact := (quantity_cases hquantity).1
    have hkeys : ((⌊q.exact⌋.toNat : Nat) : Int) = ⌊q.exact⌋ :=
      Int.toNat_of_nonneg (Int.floor_nonneg.2 hexact)
    simp only [hquantity, Bind.bind, Except.bind] at h
    cases hint with
    | keyCardinality =>
      by_cases hwhole : isWhole value q
      · simp only [hwhole, if_true] at h
        obtain rfl := Except.ok.inj h
        refine ⟨⟨q, rfl, congrArg (fun n : Int => some (Value.int n)) hkeys⟩, fun other hother => ?_⟩
        cases other <;> first | rfl | exact absurd rfl hother
      · simp [hwhole, throw, throwThe, MonadExceptOf.throw] at h
    | valuesPerKey | bytesPerRecord | recordsPerCall =>
      obtain rfl := Except.ok.inj h
      refine ⟨⟨q, rfl, rfl⟩, fun other hother => ?_⟩
      cases other <;> first | rfl | exact absurd rfl hother

end Quantities

/-! ## Calls -/

section Calls

variable {r r' : HintRecord} {hint : Hint} {value : Value}

theorem attempt_of_ok (h : r.set hint value = .ok r') : r.attempt (hint, value) = r' := by
  simp only [attempt, h]

theorem attempt_of_error {e : HintError} (h : r.set hint value = .error e) :
    r.attempt (hint, value) = r := by
  simp only [attempt, h]

theorem takes_stored {q : Quantity} (h : quantity hint value = .ok q)
    (hdouble : ∀ x, value = .float x → x.IsDouble) : hint.Takes (stored q hint) := by
  have hexact : 0 ≤ q.exact := (quantity_cases h).1
  have hstored : q.double.IsDouble := isDouble_of_quantity h hdouble
  obtain ⟨d, hd, hnonneg⟩ := nonneg_of_quantity h
  cases hint with
  | keyCardinality => exact ⟨⌊q.exact⌋, rfl, Int.floor_nonneg.2 hexact⟩
  | valuesPerKey | bytesPerRecord | recordsPerCall => exact ⟨q.double, d, rfl, hstored, hd, hnonneg⟩

/-- The whole part of a quantity is in the range of the doubles, too. -/
theorem exists_ofInt?_floor {q : Quantity} (h : quantity hint value = .ok q)
    (hdouble : ∀ x, value = .float x → x.IsDouble) :
    ∃ x, Binary64.ofInt? ⌊q.exact⌋ = some x := by
  have hexact : 0 ≤ q.exact := (quantity_cases h).1
  obtain ⟨x, hx⟩ := exists_ofRat?_of_quantity h hdouble
  have hfloor : (0 : Rat) ≤ (⌊q.exact⌋ : Int) := by exact_mod_cast Int.floor_nonneg.2 hexact
  exact Binary64.exists_ofRat?_of_le hfloor (Int.floor_le q.exact) hx

/-- One call keeps a record sane. -/
theorem Sane.attempt (h : r.Sane) (hdouble : ∀ x, value = .float x → x.IsDouble) :
    (r.attempt (hint, value)).Sane := by
  cases hset : r.set hint value with
  | error e =>
    rw [attempt_of_error hset]
    exact h
  | ok r' =>
    obtain ⟨⟨q, hq, hstored⟩, hothers⟩ := get?_set hset
    rw [attempt_of_ok hset]
    refine ⟨fun other v hv => ?_, ?_, fun k hk => ?_⟩
    · by_cases hother : other = hint
      · subst hother
        obtain rfl := Option.some.inj (hstored.symm.trans hv)
        exact takes_stored hq hdouble
      · exact h.takes other v (hothers other hother ▸ hv)
    · by_cases hother : Hint.recordsPerCall = hint
      · subst hother
        exact ⟨_, hstored⟩
      · rw [hothers _ hother]
        exact h.known
    · by_cases hother : Hint.keyCardinality = hint
      · subst hother
        obtain rfl : ⌊q.exact⌋ = k := by simpa [stored, hk, eq_comm] using hstored
        exact exists_ofInt?_floor hq hdouble
      · exact h.keys k (hothers _ hother ▸ hk)

theorem sane_afterCalls {calls : List (Hint × Value)}
    (hdoubles : ∀ call ∈ calls, ∀ x, call.2 = .float x → x.IsDouble) : (afterCalls calls).Sane := by
  induction calls using List.reverseRecOn with
  | nil =>
    refine ⟨fun hint v hv => ?_, ⟨_, rfl⟩, fun k hk => nomatch hk⟩
    cases hint with
    | keyCardinality | valuesPerKey | bytesPerRecord => exact nomatch hv
    | recordsPerCall =>
      obtain rfl := Option.some.inj hv
      have hone : Binary64.one.IsDouble := fun q hq => by
        obtain rfl := Binary64.finite.inj hq
        decide +kernel
      exact ⟨.one, 1, rfl, hone, rfl, zero_le_one⟩
  | append_singleton calls call ih =>
    rw [afterCalls, List.foldl_append]
    have hcalls := ih fun c hc => hdoubles c (List.mem_append_left _ hc)
    exact hcalls.attempt (hdoubles call (by simp))

/-- The rows can be computed, and they are known if the two hints are. -/
theorem Sane.rows (h : r.Sane) : ∃ rows, r.rows = .ok rows ∧
    (rows = none ↔ r.get? .keyCardinality = none ∨ r.get? .valuesPerKey = none) := by
  cases hkeys : r.keyCardinality with
  | none => exact ⟨none, by simp [HintRecord.rows, hkeys], by simp [get?, hkeys]⟩
  | some keys =>
    cases hvalues : r.valuesPerKey with
    | none => exact ⟨none, by simp [HintRecord.rows, hkeys, hvalues], by simp [get?, hvalues]⟩
    | some values =>
      have hget : r.get? .keyCardinality = some (.int keys) := by
        rw [get?, hkeys]
        rfl
      obtain ⟨x, hx⟩ := h.keys keys hget
      refine ⟨some (x.mul values), by simp [HintRecord.rows, hkeys, hvalues, hx], ?_⟩
      simp [get?, hkeys, hvalues]

end Calls

/-- What is known of a record whatever its setters were called with. -/
structure Reliable (r : HintRecord) : Prop where
  sane : r.Sane
  /-- The rows can be computed, and are unknown only where one of the two key hints is. -/
  rows : ∃ rows, r.rows = .ok rows ∧
    (rows = none ↔ r.get? .keyCardinality = none ∨ r.get? .valuesPerKey = none)
  /-- A call that is refused changes nothing. -/
  refused : ∀ hint value e, r.set hint value = .error e → r.attempt (hint, value) = r
  /-- A call that returns stores what comes of its value, and changes no other hint. -/
  taken : ∀ hint value r', r.set hint value = .ok r' → r.attempt (hint, value) = r' ∧
    (∃ q, quantity hint value = .ok q ∧ r'.get? hint = some (stored q hint)) ∧
    ∀ other, other ≠ hint → r'.get? other = r.get? other

/-- Records are reliable after any calls with any values. -/
theorem afterCalls_reliable {calls : List (Hint × Value)}
    (hdoubles : ∀ call ∈ calls, ∀ x, call.2 = .float x → x.IsDouble) :
    (afterCalls calls).Reliable where
  sane := sane_afterCalls hdoubles
  rows := (sane_afterCalls hdoubles).rows
  refused _ _ _ h := attempt_of_error h
  taken _ _ _ h := ⟨attempt_of_ok h, get?_set h⟩

/-- Calls some of which are refused: no number, no finite one, one below zero, one that is not whole
and one beyond the doubles. -/
def mixedCalls : List (Hint × Value) :=
  [(.keyCardinality, .int 50), (.valuesPerKey, .fraction (5 / 2)), (.bytesPerRecord, .float .negZero),
    (.recordsPerCall, .float (.finite 3)), (.valuesPerKey, .str "two"),
    (.bytesPerRecord, .float .nan), (.recordsPerCall, .int (-1)),
    (.keyCardinality, .float (.finite (1 / 2))), (.keyCardinality, .int (10 ^ 200 * 10 ^ 200))]

theorem mixedCalls_reliable : (afterCalls mixedCalls).Reliable := by
  refine afterCalls_reliable fun call hcall x hx q hq => ?_
  subst hq
  simp only [mixedCalls, List.mem_cons, List.not_mem_nil, or_false] at hcall
  rcases hcall with rfl | rfl | rfl | rfl | rfl | rfl | rfl | rfl | rfl
  all_goals simp at hx
  · subst hx
    decide +kernel
  · subst hx
    decide +kernel

example : afterCalls mixedCalls = ⟨some 50, some (.finite (5 / 2)), some .negZero, .finite 3⟩ := by
  decide +kernel

end HintRecord

end Semijoin
