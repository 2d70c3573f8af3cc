import Semijoin.Proofs.Setters

/-!
# Numbers of keys

The number of keys is meant to be a whole number that is not below zero, and to be stored as it is.
But whether a fraction is whole is decided on the nearest double, while the whole part of the
fraction itself is stored, and before anything else a number has to convert to a double. `Misjudged`
lists the values for which that makes a difference; all others are judged right.
-/

namespace Semijoin

theorem exists_eq_natCast_iff {q : Rat} : (∃ n : Nat, q = n) ↔ 0 ≤ q ∧ q.den = 1 := by
  constructor
  · rintro ⟨n, rfl⟩
    exact ⟨Nat.cast_nonneg n, Rat.den_natCast n⟩
  · rintro ⟨hnonneg, hden⟩
    obtain ⟨n, hn⟩ := Int.eq_ofNat_of_zero_le (Rat.num_nonneg.2 hnonneg)
    refine ⟨n, ?_⟩
    rw [← (Rat.den_eq_one_iff q).1 hden, hn, Int.cast_natCast]

namespace Value

/-- A value that is a whole number, not below zero. Truth values are none. -/
inductive Counts : Value → Nat → Prop where
  | int (n : Nat) : Counts (.int n) n
  | float {x : Binary64} {n : Nat} (h : x.toRat? = some (n : Rat)) : Counts (.float x) n
  | fraction (n : Nat) : Counts (.fraction n) n

/-- The values that the setter of the number of keys gets wrong. -/
inductive Misjudged : Value → Prop where
  /-- A number beyond the doubles is not refused: to look at it is an arithmetic error already. -/
  | hugeInt {n : Int} (h : Binary64.ofInt? n = none) : Misjudged (.int n)
  | hugeFraction {q : Rat} (h : Binary64.ofRat? q = none) : Misjudged (.fraction q)
  /-- A fraction next to a whole number is taken for it, and its whole part is stored. -/
  | rounded {q : Rat} {x : Binary64} (hx : Binary64.ofRat? q = some x) (hnonneg : 0 ≤ q)
      (hpart : q.den ≠ 1) (hround : (Binary64.roundValue q).den = 1) : Misjudged (.fraction q)
  /-- A refusal shows the value, which can have an integer that is too long to be written. -/
  | unwritable {v : Value} (hv : ∀ n, ¬ v.Counts n) (h : v.isWritable = false) : Misjudged v

section Counts

variable {n : Int} {x : Binary64} {q : Rat}

theorem Counts.unique {v : Value} {k m : Nat} (hk : v.Counts k) (hm : v.Counts m) : k = m := by
  cases v with
  | int n =>
    cases hk
    generalize h : (k : Int) = n at hm
    cases hm
    exact_mod_cast h
  | float x =>
    obtain ⟨⟩ | hk := hk
    obtain ⟨⟩ | hm := hm
    exact_mod_cast Option.some.inj (hk.symm.trans hm)
  | fraction q =>
    cases hk
    generalize h : (k : Rat) = q at hm
    cases hm
    exact_mod_cast h
  | _ => cases hk

theorem counts_int_iff : (∃ k, (int n).Counts k) ↔ 0 ≤ n := by
  constructor
  · rintro ⟨k, ⟨⟩⟩
    exact Int.natCast_nonneg k
  · intro h
    obtain ⟨k, rfl⟩ := Int.eq_ofNat_of_zero_le h
    exact ⟨k, .int k⟩

theorem counts_float_iff (h : x.toRat? = some q) :
    (∃ k, (float x).Counts k) ↔ 0 ≤ q ∧ q.den = 1 := by
  rw [← exists_eq_natCast_iff]
  constructor
  · rintro ⟨k, ⟨⟩⟩
    rename_i hk
    exact ⟨k, Option.some.inj (h.symm.trans hk)⟩
  · rintro ⟨k, rfl⟩
    exact ⟨k, .float h⟩

theorem counts_fraction_iff : (∃ k, (fraction q).Counts k) ↔ 0 ≤ q ∧ q.den = 1 := by
  rw [← exists_eq_natCast_iff]
  constructor
  · rintro ⟨k, ⟨⟩⟩
    exact ⟨k, rfl⟩
  · rintro ⟨k, rfl⟩
    exact ⟨k, .fraction k⟩

end Counts

end Value

namespace HintRecord

variable {r : HintRecord} {v : Value}

/-- The setter of the number of keys does with a value what it is meant to do: it stores the number
that the value counts, and if there is none it reports the value and leaves the record as it is. -/
structure JudgesRight (r : HintRecord) (v : Value) : Prop where
  stores : ∀ n : Nat, v.Counts n →
    ∃ r', r.set .keyCardinality v = .ok r' ∧ r'.get? .keyCardinality = some (.int n)
  refuses : (∀ n, ¬ v.Counts n) → r.attempt (.keyCardinality, v) = r ∧
    ∃ fault, r.set .keyCardinality v = .error (.invalid .keyCardinality v fault) ∧
      (HintError.invalid .keyCardinality v fault).isWritable

section Setter

variable {n : Nat} {fault : HintFault}

theorem set_keyCardinality (r : HintRecord) (v : Value) : r.set .keyCardinality v =
    match quantity .keyCardinality v with
    | .error e => .error e
    | .ok q =>
      if isWhole v q then .ok { r with keyCardinality := some ⌊q.exact⌋.toNat }
      else .error (.invalid .keyCardinality v .notWhole) := by
  unfold set
  cases quantity .keyCardinality v <;> rfl

theorem set_int (r : HintRecord) (n : Int) : r.set .keyCardinality (.int n) =
    match Binary64.ofInt? n with
    | none => .error .tooLarge
    | some _ =>
      if n < 0 then .error (.invalid .keyCardinality (.int n) .negative)
      else .ok { r with keyCardinality := some n.toNat } := by
  rw [set_keyCardinality]
  simp only [quantity, Binary64.ofInt?]
  cases Binary64.ofRat? (n : Rat) with
  | none => rfl
  | some x => by_cases hneg : n < 0 <;> simp [hneg, isWhole]

theorem set_float (r : HintRecord) (x : Binary64) : r.set .keyCardinality (.float x) =
    match x.toRat? with
    | none => .error (.invalid .keyCardinality (.float x) .notFinite)
    | some q =>
      if q < 0 then .error (.invalid .keyCardinality (.float x) .negative)
      else if q.den = 1 then .ok { r with keyCardinality := some ⌊q⌋.toNat }
      else .error (.invalid .keyCardinality (.float x) .notWhole) := by
  rw [set_keyCardinality]
  simp only [quantity]
  cases hx : x.toRat? with
  | none => rfl
  | some q => by_cases hneg : q < 0 <;> simp [hneg, hx, isWhole]

theorem set_fraction (r : HintRecord) (q : Rat) : r.set .keyCardinality (.fraction q) =
    match Binary64.ofRat? q with
    | none => .error .tooLarge
    | some _ =>
      if q < 0 then .error (.invalid .keyCardinality (.fraction q) .negative)
      else if (Binary64.roundValue q).den = 1 then
        .ok { r with keyCardinality := some ⌊q⌋.toNat }
      else .error (.invalid .keyCardinality (.fraction q) .notWhole) := by
  rw [set_keyCardinality]
  simp only [quantity]
  cases hx : Binary64.ofRat? q with
  | none => rfl
  | some x =>
    have hdouble : x.toRat? = some (Binary64.roundValue q) := Binary64.toRat?_of_ofRat? hx
    by_cases hneg : q < 0 <;> simp [hneg, hdouble, isWhole]

theorem JudgesRight.of_stored (hv : v.Counts n)
    (h : r.set .keyCardinality v = .ok { r with keyCardinality := some n }) :
    r.JudgesRight v where
  stores m hm := ⟨_, h, by rw [hm.unique hv]; rfl⟩
  refuses hnone := absurd hv (hnone n)

/-- A value that is not misjudged can be shown when it is refused. -/
theorem JudgesRight.of_refused (hv : ¬ v.Misjudged)
    (h : r.set .keyCardinality v = .error (.invalid .keyCardinality v fault))
    (hnone : ∀ n, ¬ v.Counts n) : r.JudgesRight v := by
  refine ⟨fun n hn => absurd hn (hnone n), fun _ => ⟨attempt_of_error h, fault, h, ?_⟩⟩
  by_contra hwritable
  exact hv (.unwritable hnone (Bool.eq_false_iff.2 hwritable))

theorem JudgesRight.set_ne_tooLarge (h : r.JudgesRight v) :
    r.set .keyCardinality v ≠ .error .tooLarge := by
  intro hset
  by_cases hcounts : ∃ n, v.Counts n
  · obtain ⟨n, hn⟩ := hcounts
    obtain ⟨r', hr', -⟩ := h.stores n hn
    simp [hset] at hr'
  · obtain ⟨-, fault, hfault, -⟩ := h.refuses (not_exists.1 hcounts)
    simp [hset] at hfault

theorem judgesRight_int {n : Int} (hv : ¬ (Value.int n).Misjudged) : r.JudgesRight (.int n) := by
  have hset := set_int r n
  cases hx : Binary64.ofInt? n with
  | none => exact absurd (.hugeInt hx) hv
  | some x =>
    by_cases hneg : n < 0
    · have hnone : ¬ ∃ k, (Value.int n).Counts k := by rwa [Value.counts_int_iff, not_le]
      exact .of_refused hv (by simpa [hx, hneg] using hset) (not_exists.1 hnone)
    · obtain ⟨k, rfl⟩ := Int.eq_ofNat_of_zero_le (not_lt.1 hneg)
      exact .of_stored (.int k) (by simpa [hx, hneg] using hset)

theorem judgesRight_float {x : Binary64} (hv : ¬ (Value.float x).Misjudged) :
    r.JudgesRight (.float x) := by
  have hset := set_float r x
  cases hx : x.toRat? with
  | none =>
    have hnone : ∀ k, ¬ (Value.float x).Counts k := fun k hk => by
      obtain ⟨⟩ | hk := hk
      simp [hx] at hk
    exact .of_refused hv (by simpa [hx] using hset) hnone
  | some q =>
    by_cases hcounts : 0 ≤ q ∧ q.den = 1
    · obtain ⟨k, rfl⟩ := exists_eq_natCast_iff.2 hcounts
      have hneg : ¬ (k : Rat) < 0 := not_lt.2 hcounts.1
      exact .of_stored (.float hx) (by simpa [hx, hneg] using hset)
    · have hnone : ¬ ∃ k, (Value.float x).Counts k := by rwa [Value.counts_float_iff hx]
      by_cases hneg : q < 0
      · exact .of_refused hv (by simpa [hx, hneg] using hset) (not_exists.1 hnone)
      · have hden : q.den ≠ 1 := fun hden => hcounts ⟨not_lt.1 hneg, hden⟩
        exact .of_refused hv (by simpa [hx, hneg, hden] using hset) (not_exists.1 hnone)

theorem judgesRight_fraction {q : Rat} (hv : ¬ (Value.fraction q).Misjudged) :
    r.JudgesRight (.fraction q) := by
  have hset := set_fraction r q
  cases hx : Binary64.ofRat? q with
  | none => exact absurd (.hugeFraction hx) hv
  | some x =>
    by_cases hcounts : 0 ≤ q ∧ q.den = 1
    · obtain ⟨k, rfl⟩ := exists_eq_natCast_iff.2 hcounts
      obtain ⟨m, hm⟩ := Binary64.exists_intCast_eq_roundValue k
      have hneg : ¬ (k : Rat) < 0 := not_lt.2 hcounts.1
      exact .of_stored (.fraction k) (by simpa [hx, hneg, hm] using hset)
    · have hnone : ¬ ∃ k, (Value.fraction q).Counts k := by rwa [Value.counts_fraction_iff]
      by_cases hneg : q < 0
      · exact .of_refused hv (by simpa [hx, hneg] using hset) (not_exists.1 hnone)
      · have hden : q.den ≠ 1 := fun hden => hcounts ⟨not_lt.1 hneg, hden⟩
        have hround : (Binary64.roundValue q).den ≠ 1 := fun hround =>
          hv (.rounded hx (not_lt.1 hneg) hden hround)
        exact .of_refused hv (by simpa [hx, hneg, hround] using hset) (not_exists.1 hnone)

/-- Values that are no numbers are refused whatever they are. -/
theorem judgesRight_of_not_number (hv : ¬ v.Misjudged) (hint : ∀ n, v ≠ .int n)
    (hfloat : ∀ x, v ≠ .float x) (hfraction : ∀ q, v ≠ .fraction q) : r.JudgesRight v := by
  have hset : r.set .keyCardinality v = .error (.invalid .keyCardinality v .notANumber) := by
    rw [set_keyCardinality]
    cases v with
    | int n => exact absurd rfl (hint n)
    | float x => exact absurd rfl (hfloat x)
    | fraction q => exact absurd rfl (hfraction q)
    | _ => rfl
  refine .of_refused hv hset fun n hn => ?_
  cases hn with
  | int => exact hint _ rfl
  | float => exact hfloat _ rfl
  | fraction => exact hfraction _ rfl

end Setter

/-- The setter of the number of keys is right about exactly the values that are not misjudged. -/
theorem judgesRight_iff (r : HintRecord) (v : Value) : r.JudgesRight v ↔ ¬ v.Misjudged := by
  constructor
  · intro h hv
    cases hv with
    | hugeInt hhuge => exact h.set_ne_tooLarge (by rw [set_int, hhuge])
    | hugeFraction hhuge => exact h.set_ne_tooLarge (by rw [set_fraction, hhuge])
    | rounded hx hnonneg hpart hround =>
      have hnone := fun n hn => hpart (Value.counts_fraction_iff.1 ⟨n, hn⟩).2
      obtain ⟨-, fault, hrefused, -⟩ := h.refuses hnone
      simp [set_fraction, hx, not_lt.2 hnonneg, hround] at hrefused
    | unwritable hnone hwritable =>
      obtain ⟨-, fault, -, hshown⟩ := h.refuses hnone
      exact absurd (hwritable.symm.trans hshown) Bool.false_ne_true
  · intro hv
    cases v with
    | int n => exact judgesRight_int hv
    | float x => exact judgesRight_float hv
    | fraction q => exact judgesRight_fraction hv
    | _ => exact judgesRight_of_not_number hv (by simp) (by simp) (by simp)

/-- A number of keys with a half in it, beside which the doubles are whole numbers. -/
def halfKeys : Value := .fraction (9007199254740993 / 2)

/-- The half is dropped. -/
theorem halfKeys_stored :
    ({} : HintRecord).attempt (.keyCardinality, halfKeys) =
        { keyCardinality := some 4503599627370496 } ∧
      ¬ ({} : HintRecord).JudgesRight halfKeys := by
  have hstored : ({} : HintRecord).attempt (.keyCardinality, halfKeys) =
      { keyCardinality := some 4503599627370496 } := by decide +kernel
  have hnone : ∀ n, ¬ halfKeys.Counts n := fun n hn => by
    have hden := (Value.counts_fraction_iff.1 ⟨n, hn⟩).2
    exact absurd hden (by decide +kernel)
  refine ⟨hstored, fun h => ?_⟩
  have hkept := hstored.symm.trans (h.refuses hnone).1
  exact absurd hkept (by decide)

end HintRecord

end Semijoin
