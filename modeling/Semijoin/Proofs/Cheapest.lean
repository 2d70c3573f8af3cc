import Mathlib.Algebra.Order.Monoid.Unbundled.WithTop
import Mathlib.Algebra.Order.Ring.Rat
import Mathlib.Data.List.NodupEquivFin
import Mathlib.Order.WithBot
import Semijoin.Cost.Estimate

/-!
# The cheapest plan

Among plans with comparable costs the cheapest is the first of least cost. The loop keeps, of the
plans it has seen, the first of least cost; that plan is the only one of its kind, and it stays the
same one when plans that cost more than another one are put in or left out.
-/

namespace Semijoin

/-! ## Where a double stands -/

/-- The number line with an infinity at either end. -/
abbrev ExtendedRat := WithBot (WithTop Rat)

namespace Binary64

/-- Where a double stands on the number line. A NaN stands nowhere, and both zeros at the same
place. -/
def rank? : Binary64 → Option ExtendedRat
  | nan => none
  | posInf => some ⊤
  | negInf => some ⊥
  | negZero => some ((0 : Rat) : WithTop Rat)
  | finite q => some (q : WithTop Rat)

/-- The strict comparison of doubles is that of their places. -/
theorem lt_iff {x y : Binary64} :
    x.lt y ↔ ∃ a b, x.rank? = some a ∧ y.rank? = some b ∧ a < b := by
  have htop (q : Rat) : ((q : WithTop Rat) : ExtendedRat) < ⊤ :=
    WithBot.coe_lt_coe.mpr (WithTop.coe_lt_top q)
  have hzero : (0 : ExtendedRat) < ⊤ := htop 0
  cases x <;> cases y <;> simp [lt, rank?, toRat?, htop, hzero]

end Binary64

namespace CostModel

variable {m : CostModel} {p q r : Plan} {ps qs : List Plan} {i j : Nat}

/-- Where the estimated cost of a plan stands, if there is an estimate and it is a number. -/
def rank? (m : CostModel) (p : Plan) : Option ExtendedRat :=
  match (m.cost p : Estimate Binary64) with
  | .ok c => c.rank?
  | .error _ => none

/-- Whether the cost of a plan can be compared. -/
def Comparable (m : CostModel) (p : Plan) : Prop := ∃ a, m.rank? p = some a

/-- Whether a plan costs no more than another one. -/
def CostsAtMost (m : CostModel) (p q : Plan) : Prop :=
  ∃ a b, m.rank? p = some a ∧ m.rank? q = some b ∧ a ≤ b

/-- Whether a plan costs less than another one. -/
def CostsLess (m : CostModel) (p q : Plan) : Prop :=
  ∃ a b, m.rank? p = some a ∧ m.rank? q = some b ∧ a < b

theorem rank?_of_cost {c : Binary64} (h : m.cost p = .ok c) : m.rank? p = c.rank? := by
  rw [rank?, h]

theorem Comparable.exists_cost (h : m.Comparable p) : ∃ c : Binary64, m.cost p = .ok c := by
  obtain ⟨a, ha⟩ := h
  unfold rank? at ha
  split at ha
  · next c hc => exact ⟨c, hc⟩
  · cases ha

theorem lt_iff_costsLess {c d : Binary64} (hp : m.cost p = .ok c) (hq : m.cost q = .ok d) :
    c.lt d ↔ m.CostsLess p q := by
  rw [Binary64.lt_iff, CostsLess, rank?_of_cost hp, rank?_of_cost hq]

theorem CostsLess.costsAtMost (h : m.CostsLess p q) : m.CostsAtMost p q := by
  obtain ⟨a, b, ha, hb, hab⟩ := h
  exact ⟨a, b, ha, hb, hab.le⟩

theorem CostsLess.comparable (h : m.CostsLess p q) : m.Comparable p := by
  obtain ⟨a, b, ha, -, -⟩ := h
  exact ⟨a, ha⟩

theorem not_costsLess_self (p : Plan) : ¬ m.CostsLess p p := by
  rintro ⟨a, b, ha, hb, hab⟩
  obtain rfl := Option.some.inj (ha.symm.trans hb)
  exact lt_irrefl a hab

theorem Comparable.costsAtMost_self (h : m.Comparable p) : m.CostsAtMost p p := by
  obtain ⟨a, ha⟩ := h
  exact ⟨a, a, ha, ha, le_rfl⟩

theorem CostsAtMost.trans_costsLess (h : m.CostsAtMost p q) (h' : m.CostsLess q r) :
    m.CostsLess p r := by
  obtain ⟨a, b, ha, hb, hab⟩ := h
  obtain ⟨b', c, hb', hc, hbc⟩ := h'
  obtain rfl := Option.some.inj (hb.symm.trans hb')
  exact ⟨a, c, ha, hc, hab.trans_lt hbc⟩

theorem CostsLess.trans_costsAtMost (h : m.CostsLess p q) (h' : m.CostsAtMost q r) :
    m.CostsLess p r := by
  obtain ⟨a, b, ha, hb, hab⟩ := h
  obtain ⟨b', c, hb', hc, hbc⟩ := h'
  obtain rfl := Option.some.inj (hb.symm.trans hb')
  exact ⟨a, c, ha, hc, hab.trans_le hbc⟩

theorem CostsAtMost.not_costsLess (h : m.CostsAtMost p q) : ¬ m.CostsLess q p :=
  fun h' => not_costsLess_self p (h.trans_costsLess h')

theorem costsAtMost_of_not_costsLess (hp : m.Comparable p) (hq : m.Comparable q)
    (h : ¬ m.CostsLess q p) : m.CostsAtMost p q := by
  obtain ⟨a, ha⟩ := hp
  obtain ⟨b, hb⟩ := hq
  exact ⟨a, b, ha, hb, le_of_not_gt fun hlt => h ⟨b, a, hb, ha, hlt⟩⟩

/-! ## The first plan of least cost -/

/-- Whether the plan at a position costs no more than any plan of the list and less than those in
front of it. -/
structure FirstCheapest (m : CostModel) (ps : List Plan) (i : Nat) (p : Plan) : Prop where
  at_position : ps[i]? = some p
  least : ∀ q ∈ ps, m.CostsAtMost p q
  first : ∀ j q, j < i → ps[j]? = some q → m.CostsLess p q

namespace FirstCheapest

theorem mem (h : m.FirstCheapest ps i p) : p ∈ ps := List.mem_of_getElem? h.at_position

theorem singleton (h : m.Comparable p) : m.FirstCheapest [p] 0 p where
  at_position := rfl
  least _ hq := List.mem_singleton.mp hq ▸ h.costsAtMost_self
  first j _ hj _ := absurd hj (Nat.not_lt_zero j)

/-- A plan that costs less takes over. -/
theorem append_of_costsLess (h : m.FirstCheapest ps i p) (hq : m.CostsLess q p) :
    m.FirstCheapest (ps ++ [q]) ps.length q where
  at_position := List.getElem?_concat_length
  least r hr := by
    obtain hr | hr := List.mem_append.mp hr
    · exact (hq.trans_costsAtMost (h.least r hr)).costsAtMost
    · obtain rfl := List.mem_singleton.mp hr
      exact hq.comparable.costsAtMost_self
  first j r hj hr := by
    rw [List.getElem?_append_left hj] at hr
    exact hq.trans_costsAtMost (h.least r (List.mem_of_getElem? hr))

/-- A plan that costs no less changes nothing. -/
theorem append_of_costsAtMost (h : m.FirstCheapest ps i p) (hq : m.CostsAtMost p q) :
    m.FirstCheapest (ps ++ [q]) i p := by
  have hi : i < ps.length := (List.getElem?_eq_some_iff.mp h.at_position).1
  refine ⟨?_, fun r hr => ?_, fun j r hj hr => ?_⟩
  · rw [List.getElem?_append_left hi, h.at_position]
  · obtain hr | hr := List.mem_append.mp hr
    · exact h.least r hr
    · exact List.mem_singleton.mp hr ▸ hq
  · rw [List.getElem?_append_left (hj.trans hi)] at hr
    exact h.first j r hj hr

theorem unique (h : m.FirstCheapest ps i p) (h' : m.FirstCheapest ps j q) : i = j ∧ p = q := by
  have hij : i = j := by
    refine Nat.le_antisymm (Nat.le_of_not_lt fun hlt => ?_) (Nat.le_of_not_lt fun hlt => ?_)
    · exact (h'.least p h.mem).not_costsLess (h.first j q hlt h'.at_position)
    · exact (h.least q h'.mem).not_costsLess (h'.first i p hlt h.at_position)
  refine ⟨hij, Option.some.inj ?_⟩
  rw [← h.at_position, hij, h'.at_position]

end FirstCheapest

/-! ## What the loop chooses -/

theorem cheapestOf_cons {c d : Binary64} (hd : m.cost q = .ok d) :
    m.cheapestOf (some (p, c)) (q :: qs) =
      if d.lt c then m.cheapestOf (some (q, d)) qs else m.cheapestOf (some (p, c)) qs := by
  rw [cheapestOf, hd]
  rfl

/-- The loop goes on from the first plan of least cost among those seen to that among all. -/
theorem FirstCheapest.cheapestOf {c : Binary64} (h : m.FirstCheapest ps i p)
    (hc : m.cost p = .ok c) (hqs : ∀ q ∈ qs, m.Comparable q) :
    ∃ j q, m.cheapestOf (some (p, c)) qs = .ok (some q) ∧ m.FirstCheapest (ps ++ qs) j q := by
  induction qs generalizing ps i p c with
  | nil => exact ⟨i, p, rfl, (List.append_nil ps).symm ▸ h⟩
  | cons q qs ih =>
    obtain ⟨hq, hqs⟩ := List.forall_mem_cons.mp hqs
    obtain ⟨d, hd⟩ := hq.exists_cost
    rw [cheapestOf_cons hd, List.append_cons]
    split
    · next hlt => exact ih (h.append_of_costsLess ((lt_iff_costsLess hd hc).mp hlt)) hd hqs
    · next hlt =>
      have hless : ¬ m.CostsLess q p := fun hless => hlt ((lt_iff_costsLess hd hc).mpr hless)
      have hp : m.Comparable p := by
        obtain ⟨a, -, ha, -⟩ := h.least p h.mem
        exact ⟨a, ha⟩
      exact ih (h.append_of_costsAtMost (costsAtMost_of_not_costsLess hp hq hless)) hc hqs

theorem exists_cheapest? (hne : ps ≠ []) (h : ∀ p ∈ ps, m.Comparable p) :
    ∃ i p, m.cheapest? ps = .ok (some p) ∧ m.FirstCheapest ps i p := by
  obtain ⟨p, ps, rfl⟩ := List.exists_cons_of_ne_nil hne
  obtain ⟨hp, hps⟩ := List.forall_mem_cons.mp h
  obtain ⟨c, hc⟩ := hp.exists_cost
  have hfirst : m.cheapest? (p :: ps) = m.cheapestOf (some (p, c)) ps := by
    rw [cheapest?, CostModel.cheapestOf, hc]
    rfl
  rw [hfirst]
  exact (FirstCheapest.singleton hp).cheapestOf hc hps

/-- Once there is a best plan there is one in the end, whatever the costs are. -/
theorem cheapestOf_some_ne_none (best : Plan × Binary64) (ps : List Plan) :
    m.cheapestOf (some best) ps ≠ .ok none := by
  induction ps generalizing best with
  | nil => exact nofun
  | cons p ps ih =>
    cases hc : (m.cost p : Estimate Binary64) with
    | error e =>
      rw [CostModel.cheapestOf, hc]
      exact nofun
    | ok c =>
      rw [cheapestOf_cons hc]
      split
      · exact ih (p, c)
      · exact ih best

theorem cheapest?_eq_none_iff (m : CostModel) (ps : List Plan) :
    m.cheapest? ps = .ok none ↔ ps = [] := by
  refine ⟨fun h => ?_, fun h => h ▸ rfl⟩
  cases ps with
  | nil => rfl
  | cons p ps =>
    rw [cheapest?, CostModel.cheapestOf] at h
    cases hc : (m.cost p : Estimate Binary64) with
    | error e =>
      rw [hc] at h
      cases h
    | ok c =>
      rw [hc] at h
      exact absurd h (cheapestOf_some_ne_none (p, c) ps)

/-- Whether the loop chooses a plan, which is at this position first. -/
structure Chooses (m : CostModel) (ps : List Plan) (i : Nat) (p : Plan) : Prop where
  cheapest : m.cheapest? ps = .ok (some p)
  at_position : ps[i]? = some p
  first : ∀ j < i, ps[j]? ≠ some p

theorem chooses_iff (h : ∀ p ∈ ps, m.Comparable p) :
    m.Chooses ps i p ↔ m.FirstCheapest ps i p := by
  constructor
  · rintro ⟨hcheapest, hat, hfirst⟩
    have hne : ps ≠ [] := List.ne_nil_of_mem (List.mem_of_getElem? hat)
    obtain ⟨j, q, hq, hj⟩ := exists_cheapest? hne h
    obtain rfl : p = q := by simpa [hcheapest] using hq
    obtain hlt | rfl | hlt := Nat.lt_trichotomy i j
    · exact absurd (hj.first i p hlt hat) (not_costsLess_self p)
    · exact hj
    · exact absurd hj.at_position (hfirst j hlt)
  · intro hp
    obtain ⟨j, q, hq, hj⟩ := exists_cheapest? (List.ne_nil_of_mem hp.mem) h
    obtain ⟨rfl, rfl⟩ := hp.unique hj
    exact ⟨hq, hp.at_position, fun k hk hat => not_costsLess_self p (hp.first k p hk hat)⟩

/-! ## Plans put in and left out -/

/-- Whether a list of plans is another one without some plans that cost more than the least, with
the positions that the other plans had before. -/
structure Thins (m : CostModel) (ps qs : List Plan) (position : Nat ↪o Nat) : Prop where
  getElem? : ∀ i, ps[i]? = qs[position i]?
  dearer : ∀ j q, qs[j]? = some q → (∀ i, position i ≠ j) → ∃ r ∈ qs, m.CostsLess r q

theorem Thins.subset {position : Nat ↪o Nat} (h : m.Thins ps qs position) : ps ⊆ qs := by
  intro p hp
  obtain ⟨i, hi⟩ := List.mem_iff_getElem?.mp hp
  exact List.mem_of_getElem? ((h.getElem? i).symm.trans hi)

theorem Thins.firstCheapest_iff {position : Nat ↪o Nat} (h : m.Thins ps qs position)
    (hqs : ∀ q ∈ qs, m.Comparable q) :
    m.FirstCheapest ps i p ↔ m.FirstCheapest qs (position i) p := by
  have of_qs {i : Nat} {p : Plan} (hp : m.FirstCheapest qs (position i) p) :
      m.FirstCheapest ps i p :=
    ⟨(h.getElem? i).trans hp.at_position, fun q hq => hp.least q (h.subset hq), fun j q hj hq =>
      hp.first (position j) q (position.strictMono hj) ((h.getElem? j).symm.trans hq)⟩
  refine ⟨fun hp => ?_, of_qs⟩
  -- The first plan of least cost in the longer list is not one of those left out.
  obtain ⟨j, r, -, hr⟩ := exists_cheapest? (List.ne_nil_of_mem (h.subset hp.mem)) hqs
  obtain ⟨i', rfl⟩ : ∃ i', position i' = j := by
    by_contra hout
    obtain ⟨r', hr', hless⟩ := h.dearer j r hr.at_position (not_exists.mp hout)
    exact (hr.least r' hr').not_costsLess hless
  obtain ⟨rfl, rfl⟩ := hp.unique (of_qs hr)
  exact hr

/-- The cheapest of some plans is the first of least cost, there is none just if there are no plans,
and plans that cost more than the least do not change which one it is. -/
theorem cheapest_first (m : CostModel) :
    (∀ ps, m.cheapest? ps = .ok none ↔ ps = []) ∧
      (∀ ps, ps ≠ [] → (∀ p ∈ ps, m.Comparable p) →
        ∃ i p, m.Chooses ps i p ∧ m.FirstCheapest ps i p) ∧
      ∀ ps qs position, (∀ q ∈ qs, m.Comparable q) → m.Thins ps qs position →
        ∀ i p, m.Chooses ps i p ↔ m.Chooses qs (position i) p := by
  refine ⟨cheapest?_eq_none_iff m, fun ps hne h => ?_, fun ps qs position hqs hthins i p => ?_⟩
  · obtain ⟨i, p, -, hp⟩ := exists_cheapest? hne h
    exact ⟨i, p, (chooses_iff h).mpr hp, hp⟩
  · have hps : ∀ p ∈ ps, m.Comparable p := fun p hp => hqs p (hthins.subset hp)
    rw [chooses_iff hps, chooses_iff hqs, hthins.firstCheapest_iff hqs]

end CostModel

/-- A cost model with pages of 500 bytes. -/
def pageModel : CostModel :=
  { config := { cpuTupleCost := .int 1, ioPageCost := .int 2, pageSizeBytes := 500 } }

/-- A scan of orders. -/
def orders (id : Nat) : Plan := .scan id "Orders" [⟨"id", .integer, false⟩]

/-- A scan of orders from which none is left out. -/
def allOrders : Plan := .filter 3 (orders 2) (.lit ⟨4, .bool true, .boolean⟩)

-- The two scans cost the same, and the filter in front of them costs more.
theorem orders_first_cheapest :
    let plans := [allOrders, orders 0, orders 1]
    let position := OrderEmbedding.ofStrictMono Nat.succ fun _ _ => Nat.succ_lt_succ
    (∀ p ∈ plans, pageModel.Comparable p) ∧ pageModel.Thins plans.tail plans position ∧
      (∃ i p, pageModel.Chooses plans i p ∧ pageModel.FirstCheapest plans i p) ∧
      ∀ p, pageModel.Chooses plans.tail 0 p ↔ pageModel.Chooses plans 1 p := by
  intro plans position
  have hscan : pageModel.cost (orders 0) = .ok (Binary64.finite 1016) := by decide +kernel
  have hscan' : pageModel.cost (orders 1) = .ok (Binary64.finite 1016) := by decide +kernel
  have hfilter : pageModel.cost allOrders = .ok (Binary64.finite 1116) := by decide +kernel
  have hcomparable : ∀ p ∈ plans, pageModel.Comparable p := by
    simp only [plans, List.forall_mem_cons]
    exact ⟨⟨_, CostModel.rank?_of_cost hfilter⟩, ⟨_, CostModel.rank?_of_cost hscan⟩,
      ⟨_, CostModel.rank?_of_cost hscan'⟩, nofun⟩
  have hless : pageModel.CostsLess (orders 0) allOrders :=
    (CostModel.lt_iff_costsLess hscan hfilter).mp (by decide +kernel)
  have hthins : pageModel.Thins plans.tail plans position := by
    refine ⟨fun _ => rfl, fun j q hq hout => ?_⟩
    cases j with
    | zero =>
      obtain rfl := Option.some.inj hq
      exact ⟨orders 0, by simp [plans], hless⟩
    | succ j => exact absurd rfl (hout j)
  obtain ⟨-, hfirst, hsame⟩ := pageModel.cheapest_first
  exact ⟨hcomparable, hthins, hfirst plans (List.cons_ne_nil _ _) hcomparable,
    hsame plans.tail plans position hcomparable hthins 0⟩

end Semijoin
