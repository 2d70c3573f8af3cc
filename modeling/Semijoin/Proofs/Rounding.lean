import Mathlib.Data.Int.Log
import Mathlib.Data.Rat.Floor
import Mathlib.Tactic.Linarith
import Mathlib.Tactic.Positivity
import Semijoin.Numeric.Binary64

/-!
# Rounding

Rounding to the nearest double keeps the order of numbers, across the magnitudes at which the grid
gets coarser, too. So the numbers that convert to a finite double form an interval around zero, and
a number between zero and one that converts does so as well.
-/

namespace Semijoin

/-! ## The nearest integer -/

theorem roundHalfEven_cases (q : Rat) :
    (roundHalfEven q = ⌊q⌋ ∧ q - ⌊q⌋ ≤ 1 / 2) ∨ (roundHalfEven q = ⌊q⌋ + 1 ∧ 1 / 2 ≤ q - ⌊q⌋) := by
  have hfloor : q.floor = ⌊q⌋ := rfl
  unfold roundHalfEven
  simp only [hfloor]
  split_ifs with hlow hhigh heven
  · exact .inl ⟨rfl, hlow.le⟩
  · exact .inr ⟨rfl, hhigh.le⟩
  · exact .inl ⟨rfl, not_lt.1 hhigh⟩
  · exact .inr ⟨rfl, not_lt.1 hlow⟩

theorem roundHalfEven_intCast (n : Int) : roundHalfEven n = n := by
  rcases roundHalfEven_cases n with ⟨hround, -⟩ | ⟨-, hhalf⟩
  · rw [hround, Int.floor_intCast]
  · rw [Int.floor_intCast, sub_self] at hhalf
    norm_num at hhalf

/-- On numbers with the same floor the ties go the same way. -/
theorem roundHalfEven_mono {p q : Rat} (h : p ≤ q) : roundHalfEven p ≤ roundHalfEven q := by
  have hfloor : ⌊p⌋ ≤ ⌊q⌋ := Int.floor_le_floor h
  rcases hfloor.lt_or_eq with hlt | heq
  · rcases roundHalfEven_cases p with ⟨hp, -⟩ | ⟨hp, -⟩ <;>
      rcases roundHalfEven_cases q with ⟨hq, -⟩ | ⟨hq, -⟩ <;> omega
  · have hp : p.floor = ⌊q⌋ := heq
    have hq : q.floor = ⌊q⌋ := rfl
    unfold roundHalfEven
    simp only [hp, hq]
    split_ifs <;> first | omega | (exfalso; linarith)

/-! ## The grid -/

theorem two_zpow_sub (m n : Nat) : (2 : Rat) ^ ((m : Int) - n) = 2 ^ m / 2 ^ n := by
  rw [zpow_sub₀ two_ne_zero, zpow_natCast, zpow_natCast]

/-- The bit lengths of numerator and denominator leave two exponents to choose from. -/
theorem floorLog2_eq_log {q : Rat} (h : 0 < q) : floorLog2 q = Int.log 2 q := by
  set n := q.num.natAbs with hn
  have hn0 : n ≠ 0 := Int.natAbs_ne_zero.2 (Rat.num_pos.2 h).ne'
  have hq : q = n / q.den := by
    have hnum : (q.num : Rat) = n := by
      rw [hn, Nat.cast_natAbs, abs_of_pos (Rat.num_pos.2 h)]
    rw [← hnum, Rat.num_div_den]
  have hnlow : (2 : Rat) ^ n.log2 ≤ n := by exact_mod_cast Nat.log2_self_le hn0
  have hnhigh : (n : Rat) < 2 ^ (n.log2 + 1) := by exact_mod_cast Nat.lt_log2_self
  have hdlow : (2 : Rat) ^ q.den.log2 ≤ q.den := by exact_mod_cast Nat.log2_self_le q.den_nz
  have hdhigh : (q.den : Rat) < 2 ^ (q.den.log2 + 1) := by exact_mod_cast Nat.lt_log2_self
  have hdpos : (0 : Rat) < q.den := by exact_mod_cast q.den_pos
  have hbelow : Int.log 2 q < (n.log2 : Int) - q.den.log2 + 1 := by
    refine (Int.lt_zpow_iff_log_lt one_lt_two h).1 ?_
    have hexp : (n.log2 : Int) - q.den.log2 + 1 = ((n.log2 + 1 : Nat) : Int) - q.den.log2 := by
      push_cast
      ring
    rw [hexp, Nat.cast_ofNat, two_zpow_sub]
    exact hq.trans_lt (div_lt_div₀ hnhigh hdlow (by positivity) (by positivity))
  have habove : (n.log2 : Int) - q.den.log2 - 1 ≤ Int.log 2 q := by
    refine (Int.zpow_le_iff_le_log one_lt_two h).1 ?_
    have hexp : (n.log2 : Int) - q.den.log2 - 1 = (n.log2 : Int) - (q.den.log2 + 1 : Nat) := by
      push_cast
      ring
    rw [hexp, Nat.cast_ofNat, two_zpow_sub]
    exact (div_le_div₀ (by positivity) hnlow hdpos hdhigh.le).trans_eq hq.symm
  unfold floorLog2
  simp only [← hn]
  split_ifs with hle
  · have : (n.log2 : Int) - q.den.log2 ≤ Int.log 2 q :=
      (Int.zpow_le_iff_le_log one_lt_two h).1 (by exact_mod_cast hle)
    omega
  · have : Int.log 2 q < (n.log2 : Int) - q.den.log2 :=
      (Int.lt_zpow_iff_log_lt one_lt_two h).1 (by exact_mod_cast not_le.1 hle)
    omega

namespace Binary64

/-- The exponent of the distance between neighbouring doubles. -/
theorem spacing_of_pos {q : Rat} (h : 0 < q) :
    spacing q = 2 ^ max (Int.log 2 q - 52) (-1074) := by
  unfold spacing
  simp only [if_neg (not_lt.2 h.le), floorLog2_eq_log h]
  split_ifs with hlt
  · rw [max_eq_right hlt.le]
  · rw [max_eq_left (not_lt.1 hlt)]

theorem spacing_pos (q : Rat) : 0 < spacing q := zpow_pos two_pos _

theorem roundValue_of_pos {q : Rat} (h : 0 < q) :
    roundValue q = roundHalfEven (q / spacing q) * spacing q := if_neg h.ne'

/-- The multiples of the spacing hold every power of two from there on. -/
theorem exists_two_zpow_eq {k e : Int} (h : k ≤ e) : ∃ n : Int, (2 : Rat) ^ e = n * 2 ^ k := by
  refine ⟨2 ^ (e - k).toNat, ?_⟩
  rw [Int.cast_pow, Int.cast_ofNat, ← zpow_natCast, Int.toNat_of_nonneg (by omega),
    ← zpow_add₀ two_ne_zero, sub_add_cancel]

section Bounds

variable {q : Rat} {e : Int}

/-- Rounding does not get past a power of two on the grid. -/
theorem roundValue_le_two_zpow (h : 0 < q) (he : max (Int.log 2 q - 52) (-1074) ≤ e)
    (hle : q ≤ 2 ^ e) : roundValue q ≤ 2 ^ e := by
  have hspacing : 0 < spacing q := spacing_pos q
  obtain ⟨n, hn⟩ := exists_two_zpow_eq he
  rw [← spacing_of_pos h] at hn
  have hround : roundHalfEven (q / spacing q) ≤ n := calc
    roundHalfEven (q / spacing q) ≤ roundHalfEven n :=
      roundHalfEven_mono ((div_le_iff₀ hspacing).2 (hn ▸ hle))
    _ = n := roundHalfEven_intCast n
  rw [roundValue_of_pos h, hn]
  exact mul_le_mul_of_nonneg_right (by exact_mod_cast hround) hspacing.le

theorem two_zpow_le_roundValue (h : 0 < q) (he : max (Int.log 2 q - 52) (-1074) ≤ e)
    (hle : 2 ^ e ≤ q) : 2 ^ e ≤ roundValue q := by
  have hspacing : 0 < spacing q := spacing_pos q
  obtain ⟨n, hn⟩ := exists_two_zpow_eq he
  rw [← spacing_of_pos h] at hn
  have hround : n ≤ roundHalfEven (q / spacing q) := calc
    n = roundHalfEven n := (roundHalfEven_intCast n).symm
    _ ≤ roundHalfEven (q / spacing q) :=
      roundHalfEven_mono ((le_div_iff₀ hspacing).2 (hn ▸ hle))
  rw [roundValue_of_pos h, hn]
  exact mul_le_mul_of_nonneg_right (by exact_mod_cast hround) hspacing.le

end Bounds

theorem roundValue_nonneg {q : Rat} (h : 0 ≤ q) : 0 ≤ roundValue q := by
  rcases h.eq_or_lt with rfl | hpos
  · rfl
  · have hround : roundHalfEven (0 : Int) ≤ roundHalfEven (q / spacing q) :=
      roundHalfEven_mono (by simpa using div_nonneg h (spacing_pos q).le)
    rw [roundHalfEven_intCast] at hround
    rw [roundValue_of_pos hpos]
    exact mul_nonneg (by exact_mod_cast hround) (spacing_pos q).le

/-- Rounding keeps the order: numbers on the same grid round there, and between different grids
there is a power of two that both have. -/
theorem roundValue_mono {p q : Rat} (hp : 0 ≤ p) (h : p ≤ q) : roundValue p ≤ roundValue q := by
  rcases hp.eq_or_lt with rfl | hpos
  · exact roundValue_nonneg h
  have hqpos : 0 < q := hpos.trans_le h
  have hlog : Int.log 2 p ≤ Int.log 2 q := Int.log_mono_right hpos h
  by_cases hgrid : spacing p = spacing q
  · rw [roundValue_of_pos hpos, roundValue_of_pos hqpos, hgrid]
    have hround : roundHalfEven (p / spacing q) ≤ roundHalfEven (q / spacing q) :=
      roundHalfEven_mono (div_le_div_of_nonneg_right h (spacing_pos q).le)
    exact mul_le_mul_of_nonneg_right (by exact_mod_cast hround) (spacing_pos q).le
  · have hne : max (Int.log 2 p - 52) (-1074) ≠ max (Int.log 2 q - 52) (-1074) := fun heq =>
      hgrid (by rw [spacing_of_pos hpos, spacing_of_pos hqpos, heq])
    have hlt : p < 2 ^ (Int.log 2 p + 1) := by
      exact_mod_cast Int.lt_zpow_succ_log_self one_lt_two p
    have hstep : (2 : Rat) ^ (Int.log 2 p + 1) ≤ 2 ^ Int.log 2 q :=
      zpow_le_zpow_right₀ one_le_two (by omega)
    have hle : (2 : Rat) ^ Int.log 2 q ≤ q := by
      exact_mod_cast Int.zpow_log_le_self one_lt_two hqpos
    calc
      roundValue p ≤ 2 ^ Int.log 2 q :=
        roundValue_le_two_zpow hpos (by omega) (hlt.le.trans hstep)
      _ ≤ roundValue q := two_zpow_le_roundValue hqpos (by omega) hle

/-- What rounding comes to is on the grid at its own magnitude, which is that of the number or, if
rounding comes to the next power of two, one more. -/
theorem exists_roundValue_eq {q : Rat} (h : 0 < q) (hr : 0 < roundValue q) :
    ∃ n : Int, roundValue q = n * spacing (roundValue q) := by
  obtain ⟨m, hm⟩ : ∃ m : Int, roundValue q = m * spacing q := ⟨_, roundValue_of_pos h⟩
  have hround {e : Int} := roundValue_le_two_zpow (e := e) h
  generalize roundValue q = r at hm hr hround ⊢
  rw [spacing_of_pos hr]
  by_cases hle : max (Int.log 2 r - 52) (-1074) ≤ max (Int.log 2 q - 52) (-1074)
  · obtain ⟨n, hn⟩ := exists_two_zpow_eq hle
    refine ⟨m * n, ?_⟩
    rw [Int.cast_mul, mul_assoc, ← hn, ← spacing_of_pos h]
    exact hm
  · have hq : q < 2 ^ (Int.log 2 q + 1) := by
      exact_mod_cast Int.lt_zpow_succ_log_self one_lt_two q
    have hlow : (2 : Rat) ^ Int.log 2 r ≤ r := by
      exact_mod_cast Int.zpow_log_le_self one_lt_two hr
    have hgrid : max (Int.log 2 q - 52) (-1074) ≤ Int.log 2 r := by omega
    have hstep : (2 : Rat) ^ (Int.log 2 q + 1) ≤ 2 ^ Int.log 2 r :=
      zpow_le_zpow_right₀ one_le_two (by omega)
    have hpower : r = 2 ^ Int.log 2 r := le_antisymm (hround hgrid (hq.le.trans hstep)) hlow
    have hbelow : max (Int.log 2 r - 52) (-1074) ≤ Int.log 2 r := by omega
    obtain ⟨n, hn⟩ := exists_two_zpow_eq hbelow
    exact ⟨n, hpower.trans hn⟩

theorem roundValue_roundValue {q : Rat} (h : 0 ≤ q) : roundValue (roundValue q) = roundValue q := by
  rcases (roundValue_nonneg h).eq_or_lt with hzero | hr
  · rw [← hzero]
    rfl
  · have hq : 0 < q := h.lt_of_ne fun hq => by
      rw [← hq] at hr
      exact absurd hr (lt_irrefl _)
    obtain ⟨n, hn⟩ := exists_roundValue_eq hq hr
    have hspacing : spacing (roundValue q) ≠ 0 := (spacing_pos _).ne'
    have hdiv : roundValue q / spacing (roundValue q) = n := by
      rw [div_eq_iff hspacing, ← hn]
    rw [roundValue_of_pos hr, hdiv, roundHalfEven_intCast, ← hn]

/-- A whole number rounds to a whole number: a grid of whole numbers leads nowhere else, and a finer
grid has the number itself. -/
theorem exists_intCast_eq_roundValue (n : Nat) : ∃ m : Int, roundValue n = m := by
  rcases Nat.eq_zero_or_pos n with rfl | hpos
  · exact ⟨0, rfl⟩
  have hn : (0 : Rat) < n := by exact_mod_cast hpos
  rw [roundValue_of_pos hn]
  rcases le_total 0 (max (Int.log 2 (n : Rat) - 52) (-1074)) with hcoarse | hfine
  · obtain ⟨k, hk⟩ := exists_two_zpow_eq hcoarse
    rw [zpow_zero, mul_one, ← spacing_of_pos hn] at hk
    exact ⟨roundHalfEven (n / spacing n) * k, by rw [hk, Int.cast_mul]⟩
  · obtain ⟨k, hk⟩ := exists_two_zpow_eq hfine
    rw [zpow_zero, ← spacing_of_pos hn] at hk
    have hspacing : spacing (n : Rat) ≠ 0 := (spacing_pos _).ne'
    have hdiv : (n : Rat) / spacing n = (n * k : Int) := by
      rw [div_eq_iff hspacing, Int.cast_mul, mul_assoc, ← hk, mul_one, Int.cast_natCast]
    refine ⟨n, ?_⟩
    rw [hdiv, roundHalfEven_intCast, ← hdiv, div_mul_cancel₀ _ hspacing, Int.cast_natCast]

/-! ## Conversion -/

theorem limit_pos : 0 < limit := by
  unfold limit
  positivity

theorem ofRat?_eq_some_iff {q : Rat} {x : Binary64} :
    ofRat? q = some x ↔ (roundValue q < limit ∧ -limit < roundValue q) ∧ ofRat q = x := by
  simp [ofRat?]

/-- What lies between zero and a number that converts does so, too. -/
theorem exists_ofRat?_of_le {p q : Rat} {x : Binary64} (hp : 0 ≤ p) (h : p ≤ q)
    (hq : ofRat? q = some x) : ∃ y, ofRat? p = some y := by
  obtain ⟨⟨hlt, -⟩, -⟩ := ofRat?_eq_some_iff.1 hq
  have hlimit : 0 < limit := limit_pos
  have hlow : -limit < roundValue p := by
    have := roundValue_nonneg hp
    linarith
  exact ⟨_, ofRat?_eq_some_iff.2 ⟨⟨(roundValue_mono hp h).trans_lt hlt, hlow⟩, rfl⟩⟩

/-- The first integer from zero on that is too large for a double. It lies halfway between the
greatest double and the next power of two, and a tie goes to the power. -/
def intLimit : Nat := 2 ^ 1024 - 2 ^ 970

theorem exists_ofInt?_iff {n : Int} (h : 0 ≤ n) : (∃ x, ofInt? n = some x) ↔ n < intLimit := by
  have hn : (0 : Rat) ≤ n := by exact_mod_cast h
  constructor
  · rintro ⟨x, hx⟩
    by_contra hle
    have hcast : ((intLimit : Int) : Rat) ≤ n := by exact_mod_cast not_lt.1 hle
    obtain ⟨y, hy⟩ := exists_ofRat?_of_le (by exact_mod_cast Int.natCast_nonneg _) hcast hx
    have hnone : (ofRat? ((intLimit : Int) : Rat)).isSome = false := by decide +kernel
    rw [hy] at hnone
    cases hnone
  · intro hlt
    have hcast : (n : Rat) ≤ ((intLimit - 1 : Int) : Rat) := by
      exact_mod_cast Int.le_sub_one_of_lt hlt
    have hlast : (ofRat? ((intLimit - 1 : Int) : Rat)).isSome = true := by decide +kernel
    obtain ⟨x, hx⟩ := Option.isSome_iff_exists.1 hlast
    exact exists_ofRat?_of_le hn hcast hx

/-- A conversion gives a finite number. -/
theorem toRat?_of_ofRat? {q : Rat} {x : Binary64} (h : ofRat? q = some x) :
    x.toRat? = some (roundValue q) := by
  obtain ⟨⟨hhigh, hlow⟩, rfl⟩ := ofRat?_eq_some_iff.1 h
  unfold ofRat
  simp only [if_neg (not_le.2 hhigh), if_neg (not_le.2 hlow)]
  split_ifs with hzero
  · rw [hzero.1]
    rfl
  · rfl

/-- The number is a double: a finite one is what its value rounds to. -/
def IsDouble (x : Binary64) : Prop := ∀ q, x = finite q → ofRat q = x

theorem IsDouble.exists_ofRat? {x : Binary64} {q : Rat} (h : x.IsDouble) (hx : x.toRat? = some q) :
    ∃ y, ofRat? q = some y := by
  have hlimit : 0 < limit := limit_pos
  cases x with
  | nan | posInf | negInf => simp [toRat?] at hx
  | negZero =>
    obtain rfl := Option.some.inj hx
    have hzero : roundValue 0 = 0 := rfl
    exact ⟨_, ofRat?_eq_some_iff.2 ⟨⟨by linarith, by linarith⟩, rfl⟩⟩
  | finite p =>
    obtain rfl := Option.some.inj hx
    have hround := h p rfl
    refine ⟨_, ofRat?_eq_some_iff.2 ⟨?_, rfl⟩⟩
    unfold ofRat at hround
    simp only at hround
    split_ifs at hround with hhigh hlow
    exact ⟨not_le.1 hhigh, not_le.1 hlow⟩

/-- What a number not below zero converts to is a double. -/
theorem isDouble_of_ofRat? {q : Rat} {x : Binary64} (hq : 0 ≤ q) (h : ofRat? q = some x) :
    x.IsDouble := by
  rintro p rfl
  obtain rfl : p = roundValue q := Option.some.inj (toRat?_of_ofRat? h)
  obtain ⟨⟨hhigh, hlow⟩, -⟩ := ofRat?_eq_some_iff.1 h
  have hnonneg : 0 ≤ roundValue q := roundValue_nonneg hq
  unfold ofRat
  simp only [roundValue_roundValue hq, if_neg (not_le.2 hhigh), if_neg (not_le.2 hlow)]
  rw [if_neg fun hzero => absurd hzero.2 (not_lt.2 hnonneg)]

end Binary64

end Semijoin
