import Mathlib.Tactic.NormNum
import Semijoin.Numeric.Shortest
import Semijoin.Proofs.Rounding

/-!
# Numbers that are read back

The shortest numeral of a double reads as that double. Seventeen digits always suffice for that: of
two neighbours with as many, one is near enough to the double between them to be rounded to it.
-/

namespace Semijoin

/-! ## Numbers near a double -/

theorem roundHalfEven_eq_of_abs_lt {x : Rat} {n : Int} (h : |x - n| < 1 / 2) :
    roundHalfEven x = n := by
  obtain ⟨hlow, hhigh⟩ := abs_lt.mp h
  have hle : (⌊x⌋ : Rat) ≤ x := Int.floor_le x
  have hlt : x < ⌊x⌋ + 1 := Int.lt_floor_add_one x
  obtain ⟨hround, hhalf⟩ | ⟨hround, hhalf⟩ := roundHalfEven_cases x
  · rw [hround]
    have h1 : (⌊x⌋ : Rat) < n + 1 := by linarith
    have h2 : (n : Rat) < ⌊x⌋ + 1 := by linarith
    have h1' : ⌊x⌋ < n + 1 := by exact_mod_cast h1
    have h2' : n < ⌊x⌋ + 1 := by exact_mod_cast h2
    omega
  · rw [hround]
    have h1 : (⌊x⌋ : Rat) + 1 < n + 1 := by linarith
    have h2 : (n : Rat) < ⌊x⌋ + 1 + 1 := by linarith
    have h1' : ⌊x⌋ + 1 < n + 1 := by exact_mod_cast h1
    have h2' : n < ⌊x⌋ + 1 + 1 := by exact_mod_cast h2
    omega

namespace Binary64

variable {p q : Rat}

/-- A number on its own grid. -/
def OnGrid (q : Rat) : Prop := ∃ n : Int, q = n * spacing q

theorem spacing_congr (hp : 0 < p) (hq : 0 < q) (h : Int.log 2 p = Int.log 2 q) :
    spacing p = spacing q := by
  rw [spacing_of_pos hp, spacing_of_pos hq, h]

/-- What is of the same magnitude as a double and nearer to it than halfway to the next one rounds
to it. -/
theorem roundValue_eq_of_near (hq : OnGrid q) (hp : 0 < p) (hq0 : 0 < q)
    (hlog : Int.log 2 p = Int.log 2 q) (hnear : |p - q| < spacing q / 2) : roundValue p = q := by
  obtain ⟨n, hn⟩ := hq
  have hs : 0 < spacing q := spacing_pos q
  have hqn : q / spacing q = n := (div_eq_iff hs.ne').mpr hn
  have habs : |p / spacing q - n| < 1 / 2 := by
    rw [← hqn, ← sub_div, abs_div, abs_of_pos hs, div_lt_iff₀ hs]
    linarith
  rw [roundValue_of_pos hp, spacing_congr hp hq0 hlog, roundHalfEven_eq_of_abs_lt habs, ← hn]

theorem log_eq_of_bounds {k : Int} (hlow : 2 ^ k ≤ p) (hhigh : p < 2 ^ (k + 1)) :
    Int.log 2 p = k := by
  have hp : 0 < p := (zpow_pos two_pos _).trans_le hlow
  have hle : k ≤ Int.log 2 p :=
    (Int.zpow_le_iff_le_log one_lt_two hp).mp (by exact_mod_cast hlow)
  have hlt : Int.log 2 p < k + 1 :=
    (Int.lt_zpow_iff_log_lt one_lt_two hp).mp (by exact_mod_cast hhigh)
  omega

/-- The first number of a magnitude is on the grid of every number there. -/
theorem OnGrid.exists_two_zpow (hq : OnGrid q) (hq0 : 0 < q) {e : Int} (he : Int.log 2 q ≤ e) :
    ∃ m : Int, (2 : Rat) ^ e = m * spacing q := by
  obtain ⟨n, hn⟩ := hq
  have hs : 0 < spacing q := spacing_pos q
  have hone : 1 ≤ n := by
    by_contra hlt
    have hcast : (n : Rat) ≤ 0 := by exact_mod_cast Int.lt_add_one_iff.mp (not_le.mp hlt)
    have := mul_nonpos_of_nonpos_of_nonneg hcast hs.le
    linarith
  have hle : spacing q ≤ q := by
    have hcast : (1 : Rat) ≤ n := by exact_mod_cast hone
    calc spacing q = 1 * spacing q := (one_mul _).symm
      _ ≤ n * spacing q := mul_le_mul_of_nonneg_right hcast hs.le
      _ = q := hn.symm
  rw [spacing_of_pos hq0] at hle ⊢
  have hlog : max (Int.log 2 q - 52) (-1074) ≤ Int.log 2 q :=
    (Int.zpow_le_iff_le_log one_lt_two hq0).mp (by exact_mod_cast hle)
  exact exists_two_zpow_eq (hlog.trans he)

/-- On the grid, one number lies below another by a step at least. -/
theorem add_step_le {s : Rat} {m n : Int} (hs : 0 < s) (h : m * s < n * s) :
    m * s + s ≤ n * s := by
  have hlt : (m : Rat) < n := lt_of_mul_lt_mul_right h hs.le
  have hle : (m : Rat) + 1 ≤ n := by exact_mod_cast Int.add_one_le_iff.mpr (by exact_mod_cast hlt)
  calc m * s + s = (m + 1) * s := by ring
    _ ≤ n * s := mul_le_mul_of_nonneg_right hle hs.le

/-- The magnitude of a number on its grid is a whole number of steps, so there is room for a step
up to the next magnitude. -/
theorem add_spacing_le (hq : OnGrid q) (hq0 : 0 < q) :
    q + spacing q ≤ 2 ^ (Int.log 2 q + 1) := by
  obtain ⟨m, hm⟩ := hq.exists_two_zpow hq0 (e := Int.log 2 q + 1) (by omega)
  obtain ⟨n, hn⟩ := hq
  have hlt : q < 2 ^ (Int.log 2 q + 1) := by
    exact_mod_cast Int.lt_zpow_succ_log_self one_lt_two q
  have hstep := add_step_le (m := n) (n := m) (spacing_pos q) (by rw [← hn, ← hm]; exact hlt)
  rwa [← hn, ← hm] at hstep

theorem two_zpow_add_spacing_le (hq : OnGrid q) (hq0 : 0 < q) (hne : q ≠ 2 ^ Int.log 2 q) :
    2 ^ Int.log 2 q + spacing q ≤ q := by
  obtain ⟨m, hm⟩ := hq.exists_two_zpow hq0 (e := Int.log 2 q) le_rfl
  obtain ⟨n, hn⟩ := hq
  have hle : (2 : Rat) ^ Int.log 2 q ≤ q := by
    exact_mod_cast Int.zpow_log_le_self one_lt_two hq0
  have hlt : (2 : Rat) ^ Int.log 2 q < q := hle.lt_of_ne (Ne.symm hne)
  have hstep := add_step_le (m := m) (n := n) (spacing_pos q) (by rw [← hn, ← hm]; exact hlt)
  rwa [← hn, ← hm] at hstep

theorem roundValue_eq_of_above (hq : OnGrid q) (hq0 : 0 < q) (hle : q ≤ p)
    (hnear : p - q < spacing q / 2) : roundValue p = q := by
  have hp : 0 < p := hq0.trans_le hle
  have hs : 0 < spacing q := spacing_pos q
  have hlow : (2 : Rat) ^ Int.log 2 q ≤ p :=
    (by exact_mod_cast Int.zpow_log_le_self one_lt_two hq0 : _ ≤ q).trans hle
  have hhigh : p < 2 ^ (Int.log 2 q + 1) := by linarith [add_spacing_le hq hq0]
  have hlog : Int.log 2 p = Int.log 2 q := log_eq_of_bounds hlow hhigh
  exact roundValue_eq_of_near hq hp hq0 hlog (by rw [abs_of_nonneg] <;> linarith)

/-- Below a power of two the grid is finer, so it does not count here. -/
theorem roundValue_eq_of_below (hq : OnGrid q) (hq0 : 0 < q) (hne : q ≠ 2 ^ Int.log 2 q)
    (hle : p ≤ q) (hnear : q - p < spacing q / 2) : roundValue p = q := by
  have hs : 0 < spacing q := spacing_pos q
  have hlow : (2 : Rat) ^ Int.log 2 q ≤ p := by linarith [two_zpow_add_spacing_le hq hq0 hne]
  have hp : 0 < p := (zpow_pos two_pos _).trans_le hlow
  have hhigh : p < 2 ^ (Int.log 2 q + 1) :=
    hle.trans_lt (by exact_mod_cast Int.lt_zpow_succ_log_self one_lt_two q)
  have hlog : Int.log 2 p = Int.log 2 q := log_eq_of_bounds hlow hhigh
  exact roundValue_eq_of_near hq hp hq0 hlog (by rw [abs_of_nonpos] <;> linarith)

/-- The spacing is the last of 53 binary digits, or above it. -/
theorem two_zpow_le_mul_spacing (hq0 : 0 < q) (k : Nat) :
    2 ^ (Int.log 2 q - 52 + k) ≤ 2 ^ k * spacing q := by
  have hstep : (2 : Rat) ^ (Int.log 2 q - 52) ≤ spacing q := by
    rw [spacing_of_pos hq0]
    exact zpow_le_zpow_right₀ one_le_two (le_max_left _ _)
  rw [zpow_add₀ two_ne_zero, zpow_natCast, mul_comm]
  exact mul_le_mul_of_nonneg_left hstep (by positivity)

theorem lt_two_pow_mul_spacing (hq0 : 0 < q) : q < 2 ^ 53 * spacing q := by
  have hlt : q < 2 ^ (Int.log 2 q + 1) := by
    exact_mod_cast Int.lt_zpow_succ_log_self one_lt_two q
  have hexp : Int.log 2 q + 1 = Int.log 2 q - 52 + (53 : Nat) := by omega
  rw [hexp] at hlt
  exact hlt.trans_le (two_zpow_le_mul_spacing hq0 53)

theorem le_two_pow_mul_spacing (hq0 : 0 < q) (h : q = 2 ^ Int.log 2 q) :
    q ≤ 2 ^ 52 * spacing q := by
  have hexp : Int.log 2 q = Int.log 2 q - 52 + (52 : Nat) := by omega
  calc q = 2 ^ (Int.log 2 q - 52 + (52 : Nat)) := by rw [← hexp]; exact h
    _ ≤ 2 ^ 52 * spacing q := two_zpow_le_mul_spacing hq0 52

/-- Of two numbers on both sides of a double, less than its sixteenth decimal place apart, one
rounds to it. -/
theorem roundValue_eq_or {low high : Rat} (hq : OnGrid q) (hq0 : 0 < q) (hlow : low ≤ q)
    (hhigh : q ≤ high) (hwidth : (high - low) * 10 ^ 16 ≤ q) :
    roundValue low = q ∨ roundValue high = q := by
  have hs : 0 < spacing q := spacing_pos q
  by_cases hnear : high - q < spacing q / 2
  · exact .inr (roundValue_eq_of_above hq hq0 hhigh hnear)
  · left
    -- a power of two has 52 binary digits below it, so the upper number would have been near
    have hne : q ≠ 2 ^ Int.log 2 q := fun hpower => by
      have := le_two_pow_mul_spacing hq0 hpower
      norm_num at this hwidth
      linarith
    refine roundValue_eq_of_below hq hq0 hne hlow ?_
    have := lt_two_pow_mul_spacing hq0
    norm_num at this hwidth
    linarith

/-- A double is on its grid. -/
theorem onGrid_of_ofRat (hq0 : 0 < q) (h : ofRat q = finite q) : OnGrid q ∧ roundValue q = q := by
  have hround : roundValue q = q := by
    unfold ofRat at h
    dsimp only at h
    split_ifs at h
    exact finite.inj h
  have hgrid : OnGrid q := ⟨roundHalfEven (q / spacing q), by
    rw [← roundValue_of_pos hq0, hround]⟩
  exact ⟨hgrid, hround⟩

theorem roundValue_neg (hq : q < 0) (h : roundValue q = q) : roundValue (-q) = -q := by
  have hspacing : spacing (-q) = spacing q := by
    unfold spacing
    rw [if_neg (not_lt.mpr (neg_pos.mpr hq).le), if_pos hq]
  have hs : spacing q ≠ 0 := (spacing_pos q).ne'
  have hgrid : q = roundHalfEven (q / spacing q) * spacing q := by
    rwa [roundValue, if_neg hq.ne, eq_comm] at h
  set n := roundHalfEven (q / spacing q)
  have hquotient : -q / spacing q = (-n : Int) := by
    rw [div_eq_iff hs, Int.cast_neg, neg_mul, ← hgrid]
  rw [roundValue, if_neg (neg_ne_zero.mpr hq.ne), hspacing, hquotient, roundHalfEven_intCast,
    Int.cast_neg, neg_mul, ← hgrid]

/-- The opposite of a double is a double. -/
theorem ofRat_neg (hq : q < 0) (h : ofRat q = finite q) : ofRat (-q) = finite (-q) := by
  unfold ofRat at h ⊢
  dsimp only at h ⊢
  split_ifs at h with hhigh hlow hzero
  have hround : roundValue q = q := finite.inj h
  have hlimit := limit_pos
  rw [hround] at hlow
  rw [roundValue_neg hq hround, if_neg (fun h => hlow (le_neg.mp h)),
    if_neg (by linarith), if_neg (by grind)]

/-- What rounds to the same value is the same double, if it is above zero. -/
theorem ofRat_congr (hp : 0 < p) (hq : 0 < q) (h : roundValue p = roundValue q) :
    ofRat p = ofRat q := by
  unfold ofRat
  simp only [h, not_lt.mpr hp.le, not_lt.mpr hq.le, and_false, if_false]

theorem roundValue_eq_zero_of_lt (hp : 0 < p) (h : p < 2 ^ (-1075 : Int)) : roundValue p = 0 := by
  have hlog : Int.log 2 p < -1075 :=
    (Int.lt_zpow_iff_log_lt one_lt_two hp).mp (by exact_mod_cast h)
  have hs : spacing p = 2 ^ (-1074 : Int) := by
    rw [spacing_of_pos hp, max_eq_right (by omega)]
  have hhalf : |p / spacing p - (0 : Int)| < 1 / 2 := by
    have hpower : (2 : Rat) ^ (-1075 : Int) = 1 / 2 * 2 ^ (-1074 : Int) := by
      rw [show (-1075 : Int) = -1 + -1074 by decide, zpow_add₀ two_ne_zero, zpow_neg_one, one_div]
    rw [Int.cast_zero, sub_zero, abs_of_pos (div_pos hp (spacing_pos p)),
      div_lt_iff₀ (spacing_pos p), hs, ← hpower]
    exact h
  rw [roundValue_of_pos hp, roundHalfEven_eq_of_abs_lt hhalf, Int.cast_zero, zero_mul]

theorem ofRat_eq_posInf (h : limit ≤ p) : ofRat p = posInf := by
  have hlimit : limit = 2 ^ (1024 : Int) := (zpow_natCast 2 1024).symm
  have hround : limit ≤ roundValue limit := by
    have hlog : Int.log 2 limit = 1024 :=
      log_eq_of_bounds hlimit.ge (hlimit.trans_lt (zpow_lt_zpow_right₀ one_lt_two (by decide)))
    rw [hlimit] at hlog ⊢
    exact two_zpow_le_roundValue (zpow_pos two_pos _) (by rw [hlog]; decide) le_rfl
  unfold ofRat
  exact if_pos (hround.trans (roundValue_mono limit_pos.le h))

theorem ofRat_eq_zero (hp : 0 ≤ p) (h : roundValue p = 0) : ofRat p = zero := by
  unfold ofRat
  simp only [h, if_neg (not_le.mpr limit_pos), if_neg (not_le.mpr (neg_neg_of_pos limit_pos)),
    not_lt.mpr hp, and_false, if_false]
  rfl

end Binary64

/-! ## The shortest numeral -/

theorem lt_ten_pow_length_repr (n : Nat) : n < 10 ^ n.repr.length :=
  (Nat.length_repr_le_iff Nat.length_repr_pos).mp le_rfl

theorem ten_pow_le_of_length_repr {n : Nat} (hn : n ≠ 0) : 10 ^ (n.repr.length - 1) ≤ n := by
  rcases Nat.eq_zero_or_pos (n.repr.length - 1) with hzero | hpos
  · rw [hzero, pow_zero]
    exact Nat.one_le_iff_ne_zero.mpr hn
  · by_contra hlt
    have hle := (Nat.length_repr_le_iff hpos).mpr (not_le.mp hlt)
    omega

/-- The lengths of numerator and denominator leave two exponents to choose from, and the lesser one
is safe. -/
theorem zpow_floorLog10_le {q : Rat} (h : 0 < q) : (10 : Rat) ^ floorLog10 q ≤ q := by
  unfold floorLog10
  dsimp only
  split_ifs with hguess
  · exact hguess
  · set n := q.num.natAbs with hn
    have hn0 : n ≠ 0 := Int.natAbs_ne_zero.mpr (Rat.num_pos.mpr h).ne'
    have hq : q = n / q.den := by
      have hnum : (q.num : Rat) = n := by
        rw [hn, Nat.cast_natAbs, abs_of_pos (Rat.num_pos.mpr h)]
      rw [← hnum, Rat.num_div_den]
    have hnlow : (10 : Rat) ^ (n.repr.length - 1) ≤ n := by
      exact_mod_cast ten_pow_le_of_length_repr hn0
    have hdhigh : (q.den : Rat) ≤ 10 ^ q.den.repr.length := by
      exact_mod_cast (lt_ten_pow_length_repr q.den).le
    have hdpos : (0 : Rat) < q.den := by exact_mod_cast q.den_pos
    have hlength : 0 < n.repr.length := Nat.length_repr_pos
    have hexp : (n.repr.length : Int) - q.den.repr.length - 1 =
        ((n.repr.length - 1 : Nat) : Int) - (q.den.repr.length : Nat) := by omega
    rw [hexp, zpow_sub₀ (by norm_num), zpow_natCast, zpow_natCast]
    exact (div_le_div₀ (by positivity) hnlow hdpos hdhigh).trans_eq hq.symm

namespace Numeral

variable {q : Rat}

/-- The numeral reads as the double. -/
def Reads (d : Numeral) (q : Rat) : Prop := Binary64.ofRat d.value = .finite q

theorem reads_of_readingBack? {count : Nat} {d : Numeral} (h : readingBack? q count = some d) :
    d.Reads q := by
  unfold readingBack? at h
  dsimp only at h
  split at h
  · next hbelow habove =>
    split_ifs at h
    all_goals
      obtain rfl := Option.some.inj h
      first | exact eq_of_beq hbelow | exact eq_of_beq habove
  · next hbelow _ =>
    obtain rfl := Option.some.inj h
    exact eq_of_beq hbelow
  · next _ habove =>
    obtain rfl := Option.some.inj h
    exact eq_of_beq habove
  · cases h

theorem value_eq (d : Numeral) : d.value = d.digits * (10 : Rat) ^ d.exponent := rfl

theorem value_nonneg (d : Numeral) : 0 ≤ d.value :=
  mul_nonneg (Nat.cast_nonneg _) (zpow_nonneg (by norm_num) _)

/-- A numeral that rounds to the value of a double reads as the double. -/
theorem reads_of_roundValue {d : Numeral} (hq0 : 0 < q) (hq : Binary64.ofRat q = .finite q)
    (h : Binary64.roundValue d.value = q) : d.Reads q := by
  have hd : 0 < d.value := by
    refine d.value_nonneg.lt_of_ne fun hzero => ?_
    rw [← hzero] at h
    exact hq0.ne h
  have hround : Binary64.roundValue q = q := (Binary64.onGrid_of_ofRat hq0 hq).2
  exact (Binary64.ofRat_congr hd hq0 (h.trans hround.symm)).trans hq

theorem exists_readingBack?_of_reads {count low : Nat} {exponent : Int}
    (hexponent : exponent = floorLog10 q + 1 - count)
    (hlow : low = ⌊q / (10 : Rat) ^ exponent⌋.toNat)
    (h : Reads ⟨low, exponent⟩ q ∨ Reads ⟨low + 1, exponent⟩ q) :
    ∃ d, readingBack? q count = some d := by
  subst hexponent hlow
  unfold readingBack?
  dsimp only
  split
  · split_ifs <;> exact ⟨_, rfl⟩
  · exact ⟨_, rfl⟩
  · exact ⟨_, rfl⟩
  · next hbelow habove =>
    obtain h | h := h
    · exact absurd (hbelow.symm.trans (beq_iff_eq.mpr h)) (by decide)
    · exact absurd (habove.symm.trans (beq_iff_eq.mpr h)) (by decide)

/-- Seventeen digits suffice. -/
theorem exists_readingBack? (hq0 : 0 < q) (hq : Binary64.ofRat q = .finite q) :
    ∃ d, readingBack? q 17 = some d := by
  set exponent := floorLog10 q + 1 - (17 : Nat) with hexponent
  have hstep : (0 : Rat) < 10 ^ exponent := zpow_pos (by norm_num) _
  set low := ⌊q / (10 : Rat) ^ exponent⌋.toNat with hlow
  have hcast : (low : Rat) = ⌊q / (10 : Rat) ^ exponent⌋ := by
    exact_mod_cast Int.toNat_of_nonneg (Int.floor_nonneg.mpr (div_pos hq0 hstep).le)
  have hbelow : (Numeral.mk low exponent).value ≤ q := by
    rw [value_eq, hcast, ← le_div_iff₀ hstep]
    exact Int.floor_le _
  have habove : q ≤ (Numeral.mk (low + 1) exponent).value := by
    rw [value_eq, Nat.cast_add, Nat.cast_one, hcast, ← div_le_iff₀ hstep]
    exact (Int.lt_floor_add_one _).le
  have hwidth : ((Numeral.mk (low + 1) exponent).value - (Numeral.mk low exponent).value) *
      10 ^ 16 ≤ q := calc
    _ = (10 : Rat) ^ exponent * 10 ^ 16 := by
      simp only [value_eq]
      push_cast
      ring
    _ = 10 ^ floorLog10 q := by
      rw [← zpow_natCast, ← zpow_add₀ (by norm_num), hexponent]
      congr 1
      push_cast
      ring
    _ ≤ q := zpow_floorLog10_le hq0
  have hgrid := (Binary64.onGrid_of_ofRat hq0 hq).1
  refine exists_readingBack?_of_reads hexponent hlow ?_
  exact (Binary64.roundValue_eq_or hgrid hq0 hbelow habove hwidth).imp
    (reads_of_roundValue hq0 hq) (reads_of_roundValue hq0 hq)

theorem reads_shortest (hq0 : 0 < q) (hq : Binary64.ofRat q = .finite q) :
    (shortest q).Reads q := by
  obtain ⟨d, hd⟩ := exists_readingBack? hq0 hq
  have hsome : ((List.range' 1 17).findSome? (readingBack? q)).isSome :=
    List.findSome?_isSome_iff.mpr ⟨17, by decide, by rw [hd, Option.isSome_some]⟩
  obtain ⟨d, hfound⟩ := Option.isSome_iff_exists.mp hsome
  rw [shortest, hfound, Option.getD_some]
  obtain ⟨count, -, hcount⟩ := List.exists_of_findSome?_eq_some hfound
  exact reads_of_readingBack? hcount

/-! ## Reading a numeral -/

theorem value_lt_zpow (d : Numeral) :
    d.value < 10 ^ (d.exponent + d.digits.repr.length) := by
  have hdigits : (d.digits : Rat) < 10 ^ d.digits.repr.length := by
    exact_mod_cast lt_ten_pow_length_repr d.digits
  rw [value_eq, add_comm, zpow_add₀ (by norm_num), zpow_natCast]
  exact mul_lt_mul_of_pos_right hdigits (zpow_pos (by norm_num) _)

theorem zpow_le_value {d : Numeral} (h : d.digits ≠ 0) :
    10 ^ (d.exponent + d.digits.repr.length - 1) ≤ d.value := by
  have hdigits : (10 : Rat) ^ (d.digits.repr.length - 1) ≤ d.digits := by
    exact_mod_cast ten_pow_le_of_length_repr h
  have hlength : 0 < d.digits.repr.length := Nat.length_repr_pos
  have hexp : d.exponent + d.digits.repr.length - 1 =
      ((d.digits.repr.length - 1 : Nat) : Int) + d.exponent := by omega
  rw [value_eq, hexp, zpow_add₀ (by norm_num), zpow_natCast]
  exact mul_le_mul_of_nonneg_right hdigits (zpow_nonneg (by norm_num) _)

theorem two_pow_le_ten_pow {m n : Nat} (h : m ≤ 3 * n) : (2 : Rat) ^ m ≤ 10 ^ n := calc
  (2 : Rat) ^ m ≤ 2 ^ (3 * n) := pow_le_pow_right₀ one_le_two h
  _ = 8 ^ n := by rw [pow_mul]; norm_num
  _ ≤ 10 ^ n := pow_le_pow_left₀ (by norm_num) (by norm_num) n

/-- Numerals out of the range of the doubles are told by their size as they would be by their value.
-/
theorem toBinary64_eq_ofRat (d : Numeral) : d.toBinary64 = Binary64.ofRat d.value := by
  unfold toBinary64
  dsimp only
  split_ifs with hsmall hlarge
  · rcases eq_or_ne d.digits 0 with hzero | hne
    · have hvalue : d.value = 0 := by rw [value_eq, hzero, Nat.cast_zero, zero_mul]
      exact (Binary64.ofRat_eq_zero d.value_nonneg (by rw [hvalue]; rfl)).symm
    · have hmagnitude : d.exponent + d.digits.repr.length < -400 := hsmall.resolve_left hne
      have hpos : 0 < d.value := (zpow_pos (by norm_num) _).trans_le (zpow_le_value hne)
      have hlt : d.value < 2 ^ (-1075 : Int) := calc
        d.value < 10 ^ (d.exponent + d.digits.repr.length) := d.value_lt_zpow
        _ ≤ 10 ^ (-401 : Int) := zpow_le_zpow_right₀ (by norm_num) (by omega)
        _ ≤ 2 ^ (-1075 : Int) := by
          rw [zpow_neg, zpow_neg, zpow_ofNat, zpow_ofNat]
          exact inv_anti₀ (pow_pos two_pos _) (two_pow_le_ten_pow (by decide))
      exact (Binary64.ofRat_eq_zero hpos.le (Binary64.roundValue_eq_zero_of_lt hpos hlt)).symm
  · have hne : d.digits ≠ 0 := fun h => hsmall (.inl h)
    have hle : Binary64.limit ≤ d.value := calc
      Binary64.limit ≤ 10 ^ (400 : Int) := by
        rw [zpow_ofNat]
        exact two_pow_le_ten_pow (by decide)
      _ ≤ 10 ^ (d.exponent + d.digits.repr.length - 1) :=
        zpow_le_zpow_right₀ (by norm_num) (by omega)
      _ ≤ d.value := zpow_le_value hne
    exact (Binary64.ofRat_eq_posInf hle).symm
  · rfl

end Numeral

end Semijoin
