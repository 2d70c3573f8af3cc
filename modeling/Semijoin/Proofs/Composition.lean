import Semijoin.Proofs.Transpose

/-!
# Substituting twice

Two substitutions one after the other are a single one, whose replacements are those of the first
with the second carried out in them and whose offset is the sum of the offsets. The one condition is
that no reference which the first substitution only moves comes to where the second one replaces. So
a condition that moves below two projections moves below their composition.
-/

namespace Semijoin

namespace Expr

variable {f g : Column → Expr} {e e' : Expr} {c : Column} {offset offset₁ offset₂ : Int}
  {replacements replacements₁ replacements₂ : List Expr}

/-! ## Equality up to names -/

/-- Names of columns play no part in equality. -/
theorem same?_unnamed (e e' : Expr) : e.unnamed.same? e'.unnamed = e.same? e' := by
  induction e generalizing e' with
  | col | lit | foreign => cases e' <;> rfl
  | bin op left right ihl ihr =>
    cases e' with
    | bin op' left' right' => simp only [unnamed_bin, same?, ihl, ihr]
    | _ => rfl
  | un op operand ih =>
    cases e' with
    | un op' operand' => simp only [unnamed_un, same?, ih]
    | _ => rfl

theorem same?_of_unnamed_eq (h : e.unnamed = e'.unnamed) : e.same? e' = some true := by
  rw [← same?_unnamed, h, same?_self]

/-! ## Binding twice -/

theorem bind_bind (f g : Column → Expr) (e : Expr) :
    (e.bind f).bind g = e.bind fun c => (f c).bind g := by
  induction e with
  | col | lit | foreign => rfl
  | bin op left right ihl ihr => simp only [bind, ihl, ihr]
  | un op operand ih => simp only [bind, ih]

theorem unnamed_bind_congr (h : ∀ c ∈ e.columns, (f c).unnamed = (g c).unnamed) :
    (e.bind f).unnamed = (e.bind g).unnamed := by
  induction e with
  | col c => exact h c (List.mem_singleton_self c)
  | lit | foreign => rfl
  | bin op left right ihl ihr =>
    simp only [bind, unnamed_bin, ihl fun c hc => h c (List.mem_append_left _ hc),
      ihr fun c hc => h c (List.mem_append_right _ hc)]
  | un op operand ih => simp only [bind, unnamed_un, ih h]

/-- Where a substitution does not look at names, neither does its result. -/
theorem unnamed_bind_unnamed (h : ∀ c, (g c.unnamed).unnamed = (g c).unnamed) (e : Expr) :
    (e.unnamed.bind g).unnamed = (e.bind g).unnamed := by
  have hbind : e.unnamed.bind g = e.bind fun c => g c.unnamed := bind_bind _ g e
  rw [hbind]
  exact unnamed_bind_congr fun c _ => h c

theorem bind_congr_unnamed (h : ∀ c, (g c.unnamed).unnamed = (g c).unnamed)
    (heq : e.unnamed = e'.unnamed) : (e.bind g).unnamed = (e'.bind g).unnamed := by
  rw [← unnamed_bind_unnamed h, heq, unnamed_bind_unnamed h]

/-! ## Replacements -/

/-- Whether a substitution by these replacements replaces references to a position. -/
def Replaces (replacements : List Expr) (i : Int) : Prop := 0 ≤ i ∧ i < replacements.length

instance (replacements : List Expr) (i : Int) : Decidable (Replaces replacements i) :=
  inferInstanceAs (Decidable (_ ∧ _))

theorem Replaces.exists_getElem? {i : Int} (h : Replaces replacements i) :
    ∃ r, replacements[i.toNat]? = some r := by
  have hlt : i.toNat < replacements.length := by
    have := h.1
    have := h.2
    omega
  exact ⟨_, List.getElem?_eq_getElem hlt⟩

theorem replacement_of_getElem? {r : Expr} (h : 0 ≤ c.index)
    (hr : replacements[c.index.toNat]? = some r) : replacement replacements offset c = r := by
  simp [replacement, h, hr]

theorem replacement_of_not_replaces (h : ¬ Replaces replacements c.index) :
    replacement replacements offset c = col (c.shift offset) := by
  unfold replacement
  split
  · next hpos =>
    have hnone : replacements[c.index.toNat]? = none := by
      rw [List.getElem?_eq_none_iff]
      have : ¬ c.index < replacements.length := fun hlt => h ⟨hpos, hlt⟩
      omega
    rw [hnone]
  · rfl

theorem unnamed_replacement_unnamed (replacements : List Expr) (offset : Int) (c : Column) :
    (replacement replacements offset c.unnamed).unnamed =
      (replacement replacements offset c).unnamed := by
  by_cases h : Replaces replacements c.index
  · obtain ⟨r, hr⟩ := h.exists_getElem?
    rw [replacement_of_getElem? h.1 hr, replacement_of_getElem? (c := c.unnamed) h.1 hr]
  · rw [replacement_of_not_replaces h, replacement_of_not_replaces (c := c.unnamed) h]
    rfl

/-- Every expression of a list substituted into, if there is no expression of a foreign kind. -/
def substituteAll? (es replacements : List Expr) (offset : Int) : Option (List Expr) :=
  es.mapM fun e => e.substitute? replacements offset

theorem substituteAll?_cons_eq_some {es es' : List Expr} :
    substituteAll? (e :: es) replacements offset = some es' ↔
      ∃ r rs, e.substitute? replacements offset = some r ∧
        substituteAll? es replacements offset = some rs ∧ r :: rs = es' := by
  simp [substituteAll?, Option.bind_eq_some_iff]

theorem exists_substituteAll? {es : List Expr} (hes : ∀ e ∈ es, e.isKnown) :
    ∃ es', substituteAll? es replacements offset = some es' := by
  induction es with
  | nil => exact ⟨[], rfl⟩
  | cons e es ih =>
    obtain ⟨r, hr⟩ := exists_mapColumns? (replacement replacements offset) (hes e (by simp))
    obtain ⟨rs, hrs⟩ := ih fun e he => hes e (List.mem_cons_of_mem _ he)
    exact ⟨r :: rs, substituteAll?_cons_eq_some.mpr ⟨r, rs, hr, hrs, rfl⟩⟩

theorem map_unnamed_of_substituteAll? {es es' : List Expr}
    (h : substituteAll? es replacements offset = some es') :
    es'.map unnamed = es.map fun e => (e.bind (replacement replacements offset)).unnamed := by
  induction es generalizing es' with
  | nil =>
    obtain rfl := Option.some.inj h
    rfl
  | cons e es ih =>
    obtain ⟨r, rs, hr, hrs, rfl⟩ := substituteAll?_cons_eq_some.mp h
    rw [List.map_cons, List.map_cons, ih hrs, unnamed_mapColumns? hr]

theorem length_of_substituteAll? {es es' : List Expr}
    (h : substituteAll? es replacements offset = some es') : es'.length = es.length := by
  simpa using congrArg List.length (map_unnamed_of_substituteAll? h)

/-- Whether a reference that the first substitution only moves is only moved by the second. -/
def StaysApart (replacements₁ replacements₂ : List Expr) (offset₁ : Int) (e : Expr) : Prop :=
  ∀ c ∈ e.columns, ¬ Replaces replacements₁ c.index → ¬ Replaces replacements₂ (c.index + offset₁)

instance (replacements₁ replacements₂ : List Expr) (offset₁ : Int) (e : Expr) :
    Decidable (StaysApart replacements₁ replacements₂ offset₁ e) :=
  inferInstanceAs (Decidable (∀ _ ∈ _, _))

/-- What one reference becomes in two substitutions and in their composition. -/
theorem unnamed_bind_replacement {composed : List Expr}
    (hcomposed : substituteAll? replacements₁ replacements₂ offset₂ = some composed)
    (hc : ¬ Replaces replacements₁ c.index → ¬ Replaces replacements₂ (c.index + offset₁)) :
    ((replacement replacements₁ offset₁ c).bind (replacement replacements₂ offset₂)).unnamed =
      (replacement composed (offset₁ + offset₂) c).unnamed := by
  by_cases h : Replaces replacements₁ c.index
  · obtain ⟨r, hr⟩ := h.exists_getElem?
    have hget := congrArg (·[c.index.toNat]?) (map_unnamed_of_substituteAll? hcomposed)
    simp only [List.getElem?_map, hr, Option.map_some, Option.map_eq_some_iff] at hget
    obtain ⟨r', hr', heq⟩ := hget
    rw [replacement_of_getElem? h.1 hr, replacement_of_getElem? h.1 hr', heq]
  · have h' : ¬ Replaces composed c.index := by
      rw [Replaces, length_of_substituteAll? hcomposed]
      exact h
    have hmoved : ¬ Replaces replacements₂ (c.shift offset₁).index := hc h
    rw [replacement_of_not_replaces h, replacement_of_not_replaces h', bind,
      replacement_of_not_replaces hmoved]
    simp only [Column.shift, Int.add_assoc]

theorem isKnown_replacement (h : ∀ r ∈ replacements, r.isKnown) (offset : Int) (c : Column) :
    (replacement replacements offset c).isKnown := by
  by_cases hc : Replaces replacements c.index
  · obtain ⟨r, hr⟩ := hc.exists_getElem?
    rw [replacement_of_getElem? hc.1 hr]
    exact h r (List.mem_of_getElem? hr)
  · rw [replacement_of_not_replaces hc]
    rfl

/-- Two substitutions one after the other come to their composition. -/
def Composes (replacements₁ replacements₂ : List Expr) (offset₁ offset₂ : Int) (e : Expr) : Prop :=
  ∃ e₁ e₂ composed e',
    e.substitute? replacements₁ offset₁ = some e₁ ∧
    e₁.substitute? replacements₂ offset₂ = some e₂ ∧
    substituteAll? replacements₁ replacements₂ offset₂ = some composed ∧
    e.substitute? composed (offset₁ + offset₂) = some e' ∧
    e₂.same? e' = some true

theorem composes (he : e.isKnown) (hreplacements : ∀ r ∈ replacements₁, r.isKnown)
    (hapart : e.StaysApart replacements₁ replacements₂ offset₁) :
    e.Composes replacements₁ replacements₂ offset₁ offset₂ := by
  let f := replacement replacements₁ offset₁
  let g := replacement replacements₂ offset₂
  obtain ⟨e₁, he₁⟩ := exists_mapColumns? f he
  have hknown : e₁.isKnown := by
    rw [isKnown_congr (unnamed_mapColumns? he₁)]
    exact isKnown_bind (fun c _ => isKnown_replacement hreplacements offset₁ c) he
  obtain ⟨e₂, he₂⟩ := exists_mapColumns? g hknown
  obtain ⟨composed, hcomposed⟩ :
      ∃ es, substituteAll? replacements₁ replacements₂ offset₂ = some es :=
    exists_substituteAll? hreplacements
  obtain ⟨e', he'⟩ := exists_mapColumns? (replacement composed (offset₁ + offset₂)) he
  refine ⟨e₁, e₂, composed, e', he₁, he₂, hcomposed, he', same?_of_unnamed_eq ?_⟩
  calc e₂.unnamed = (e₁.bind g).unnamed := unnamed_mapColumns? he₂
    _ = ((e.bind f).bind g).unnamed :=
      bind_congr_unnamed (unnamed_replacement_unnamed _ _) (unnamed_mapColumns? he₁)
    _ = (e.bind fun c => (f c).bind g).unnamed := by rw [bind_bind]
    _ = (e.bind (replacement composed (offset₁ + offset₂))).unnamed :=
      unnamed_bind_congr fun c hc => unnamed_bind_replacement hcomposed (hapart c hc)
    _ = e'.unnamed := (unnamed_mapColumns? he').symm

/-- Where nothing is replaced, everything is shifted. -/
theorem substitute?_nil (e : Expr) (offset : Int) : e.substitute? [] offset = e.shift? offset := by
  have hreplacement : replacement [] offset = fun c => col (c.shift offset) :=
    funext fun c => replacement_of_not_replaces fun h => absurd h.2 (Int.not_lt.mpr h.1)
  rw [substitute?, hreplacement, shift?]

end Expr

/-! ## Stacked projections -/

/-- The outputs of two projections in one, which computes the outer ones from the input of the inner
ones. -/
def composedOutputs? (input : Plan) (inner outer : List Output) : Option (List Output) :=
  outer.mapM fun o => (below? input inner o.expr).map fun e => { o with expr := e }

theorem map_expr_composedOutputs? (input : Plan) (inner outer : List Output) :
    (composedOutputs? input inner outer).map (List.map Output.expr) =
      Expr.substituteAll? (outer.map Output.expr) (inner.map Output.expr)
        ((input.schema.length : Int) - inner.length) := by
  induction outer with
  | nil => rfl
  | cons o outer ih =>
    rw [composedOutputs?, Expr.substituteAll?] at ih ⊢
    rw [List.map_cons, List.mapM_cons, List.mapM_cons, ← ih, ← below?]
    cases below? input inner o.expr with
    | none => rfl
    | some e =>
      cases outer.mapM fun o => (below? input inner o.expr).map fun e => { o with expr := e } <;>
        rfl

/-- A condition that moves below two projections one after the other comes to what it comes to below
their composition. -/
def Expr.MovesBelowBoth (input : Plan) (inner outer : List Output) (condition : Expr) : Prop :=
  ∀ id, ∃ c₁ c₂ outputs c',
    below? (.project id input inner) outer condition = some c₁ ∧
    below? input inner c₁ = some c₂ ∧
    composedOutputs? input inner outer = some outputs ∧
    below? input outputs condition = some c' ∧
    c₂.same? c' = some true

/-- A reference to the columns behind the outer outputs is to those behind the inner ones next. -/
theorem Expr.staysApart_of_positions {condition : Expr}
    (hpositions : ∀ c ∈ condition.columns, 0 ≤ c.index) (inner outer : List Output) :
    condition.StaysApart (outer.map Output.expr) (inner.map Output.expr)
      ((inner.length : Int) - outer.length) := by
  intro c hc houtside hinside
  have hpos := hpositions c hc
  simp only [Replaces, List.length_map] at houtside hinside
  omega

theorem Expr.movesBelowBoth {input : Plan} {inner outer : List Output} {condition : Expr}
    (hcondition : condition.isKnown) (houter : ∀ o ∈ outer, o.expr.isKnown)
    (hapart : condition.StaysApart (outer.map Output.expr) (inner.map Output.expr)
      ((inner.length : Int) - outer.length)) :
    condition.MovesBelowBoth input inner outer := by
  intro id
  obtain ⟨c₁, c₂, composed, c', hc₁, hc₂, hcomposed, hc', hsame⟩ :
      condition.Composes (outer.map Output.expr) (inner.map Output.expr)
        ((inner.length : Int) - outer.length) ((input.schema.length : Int) - inner.length) :=
    composes hcondition (List.forall_mem_map.mpr houter) hapart
  obtain ⟨outputs, houtputs, rfl⟩ :=
    Option.map_eq_some_iff.mp ((map_expr_composedOutputs? input inner outer).trans hcomposed)
  have hlength : outputs.length = outer.length := by
    simpa using length_of_substituteAll? hcomposed
  have hwidth : (Plan.project id input inner).schema.length = inner.length := List.length_map _
  refine ⟨c₁, c₂, outputs, c', ?_, hc₂, houtputs, ?_, hsame⟩
  · rwa [below?, hwidth]
  · have hoffset : (input.schema.length : Int) - outputs.length =
        (inner.length : Int) - outer.length + ((input.schema.length : Int) - inner.length) := by
      rw [hlength]
      omega
    rwa [below?, hoffset]

/-- Substituting twice comes to one substitution by the replacements that the second one has been
carried out in, moving a condition below two projections to moving it below their composition, and
substituting nothing to shifting. -/
theorem Expr.substitution_composes {e : Expr} (he : e.isKnown) :
    (∀ replacements₁ replacements₂ offset₁ offset₂, (∀ r ∈ replacements₁, r.isKnown) →
        e.StaysApart replacements₁ replacements₂ offset₁ →
        e.Composes replacements₁ replacements₂ offset₁ offset₂) ∧
      (∀ input inner outer, (∀ o ∈ outer, o.expr.isKnown) →
        e.StaysApart (outer.map Output.expr) (inner.map Output.expr)
          ((inner.length : Int) - outer.length) →
        e.MovesBelowBoth input inner outer) ∧
      ∀ offset, ∃ e₁ e₂, e.substitute? [] offset = some e₁ ∧ e.shift? offset = some e₂ ∧
        e₁.same? e₂ = some true := by
  refine ⟨fun _ _ _ _ => composes he, fun _ _ _ => movesBelowBoth he, fun offset => ?_⟩
  obtain ⟨e', he'⟩ : ∃ e', e.shift? offset = some e' := exists_mapColumns? _ he
  exact ⟨e', e', (substitute?_nil e offset).trans he', he', same?_self e'⟩

/-- Two outputs that exchange two columns. -/
def crossedOutputs : List Output :=
  [⟨.col ⟨1, .integer, true, some "b"⟩, "a"⟩, ⟨.col ⟨0, .integer, true, some "a"⟩, "b"⟩]

/-- A condition over two outputs and the columns behind them. -/
def crossedCondition : Expr :=
  .bin .and (.bin .eq (.col ⟨0, .integer, true, some "a"⟩) (.col ⟨3, .integer, true, some "d"⟩))
    (.un .isNotNull (.col ⟨1, .integer, true, none⟩))

-- The reference behind the outputs has a negative position between the two substitutions.
theorem crossedCondition_composes :
    let exprs := crossedOutputs.map Output.expr
    let input := Plan.scan 0 "Orders" [⟨"a", .integer, true⟩, ⟨"b", .integer, true⟩]
    crossedCondition.isKnown ∧ (∀ r ∈ exprs, r.isKnown) ∧
      crossedCondition.StaysApart exprs exprs (-5) ∧
      crossedCondition.Composes exprs exprs (-5) 7 ∧
      crossedCondition.MovesBelowBoth input crossedOutputs crossedOutputs := by
  intro exprs input
  have hknown : crossedCondition.isKnown := rfl
  have hexprs : ∀ r ∈ exprs, r.isKnown := by decide
  have hapart : crossedCondition.StaysApart exprs exprs (-5) := by decide
  obtain ⟨hcomposes, hmoves, -⟩ := Expr.substitution_composes hknown
  exact ⟨hknown, hexprs, hapart, hcomposes exprs exprs (-5) 7 hexprs hapart,
    hmoves input crossedOutputs crossedOutputs (by decide)
      (Expr.staysApart_of_positions (by decide) _ _)⟩

end Semijoin
