import Semijoin.Proofs.Run

/-!
# Rewriting type-checks

A plan that passed construction stays one: whatever a rule matches, its replacement passes all
checks again. So the optimizer never drops a replacement, never fails a check while it puts one in,
and returns a plan with the schema of the one it was given. It can still fail to say so: the message
that reports a rewrite shows labels, and not every label can be written.
-/

namespace Semijoin

open Run

/-- Every match on a plan that passed construction can be applied, to a plan of the same schema. A
run of the optimizer that returns gives a plan of the same schema and logs no warning, which is how
it would report a replacement that does not type-check. A run fails only for the reasons of
`Optimizer.CanFail`, and if foreign nodes can be built anew only because of an integer that is too
long to be written. -/
theorem optimizeWith_typechecks {p : Plan} {s : RunState} (hp : p.Built s.next)
    (hknown : p.KnownExprs) :
    (∀ rule ∈ shippedRules, ∀ n ∈ p.nodes, ∀ m, rule.match? n = some m → ∀ next,
      ∃ q next', rule.apply m next = .ok (q, next') ∧ q.schema = n.schema) ∧
    ∀ o : Optimizer, o.rules ⊆ shippedRules → ∀ bound order,
      (o.optimizeWith bound order p).EnsuresUnless
        (fun e => o.CanFail bound p e ∧ (p.Rebuilds → e = .tooLong)) s fun q s' =>
        q.schema = p.schema ∧
          ∃ entries, s'.log = s.log ++ entries ∧ ∀ e ∈ entries, e.level = .debug := by
  constructor
  · intro rule hrule n hn m hmatch next
    have hchecked : n.Checked := hp.checked.of_mem hn
    have hexprs : n.KnownExprs := hknown.of_mem hn
    obtain ⟨q, next', happly, hfires, -⟩ := Rule.applies hrule hchecked hexprs hmatch next
    exact ⟨q, next', happly, hfires.schema⟩
  · intro o hrules bound order
    refine ((o.ensuresUnless_optimizeWith hrules hp bound order).mono fun e he => ?_).imp ?_
    · exact ⟨he, he.eq_tooLong hp.checked hknown⟩
    · rintro q s' ⟨counts, hprogress, -⟩
      obtain ⟨entries, hlog, hdebug, -⟩ := hprogress.log
      exact ⟨hprogress.rewrites.schema, entries, hlog, hdebug⟩

theorem openOrders_typechecks :
    (({ rules := shippedRules } : Optimizer).optimizeWith 3 .topDown openOrders).Ensures ⟨5, []⟩
      fun q s' => q.schema = [⟨"id", .integer, false⟩] ∧
        ∃ entries, s'.log = [] ++ entries ∧ ∀ e ∈ entries, e.level = .debug :=
  ((optimizeWith_typechecks openOrders_built openOrders_knownExprs).2 _ (List.Subset.refl _) 3
    .topDown).ensures fun e he => openOrders_not_canFail _ e he.1

/-! ## A run that cannot report what it does -/

/-- The orders from afar that have a line: a join above a filter whose label cannot be written. -/
def farLines : Plan :=
  .join 3 .semi Plan.farOrders (.scan 2 "lines" [⟨"order", .integer, true⟩])
    (some (.bin .eq (.col ⟨0, .integer, false, some "id"⟩) (.col ⟨1, .integer, true, none⟩)))

theorem farLines_built : farLines.Built 4 where
  checked := by
    simp only [farLines, Plan.farOrders, Plan.Checked, Plan.all_join, Plan.all_filter,
      Plan.all_scan]
    exact ⟨rfl, ⟨rfl, rfl⟩, rfl⟩
  ids := by simp [farLines, Plan.farOrders, Plan.IdsBelow, Plan.id]

theorem farLines_knownExprs : farLines.KnownExprs := by
  simp [farLines, Plan.farOrders, Plan.KnownExprs, Plan.exprs, Expr.isKnown]

/-- The rule fires, but the run ends there. -/
theorem farLines_fails :
    farLines.Built 4 ∧ farLines.KnownExprs ∧ farLines.KnownNodes ∧
      (({ rules := [filterTranspose] } : Optimizer).optimizeWith 10 .topDown farLines).Fails
        ⟨4, []⟩ .tooLong := by
  refine ⟨farLines_built, farLines_knownExprs, by simp [farLines, Plan.farOrders,
    Plan.KnownNodes], ?_⟩
  have htry : (tryRule filterTranspose farLines).Fails ⟨4, []⟩ .tooLong :=
    tryRule_fails_of_some rfl (by decide +kernel)
  have hwalk : (walk (tryRule filterTranspose) .topDown farLines).Fails ⟨4, []⟩ .tooLong := by
    rw [walk, topDown]
    exact htry.bind _
  exact (hwalk.bind _).bind _

end Semijoin
