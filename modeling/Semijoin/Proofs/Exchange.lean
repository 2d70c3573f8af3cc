import Mathlib.Algebra.Ring.Rat
import Mathlib.Data.List.Forall2
import Semijoin.Proofs.Built

/-!
# Exchanging a child

A schema refines another one if it has the same types position by position and allows null only
where the other does. Whatever fits a schema fits one that refines it, so a node that passed
construction passes again over children whose schemas refine those of its own, and its schema then
refines the one that it had. This is why a child can be exchanged at any depth. An index without a
child is refused with the label of the node, unless the label holds an integer that is too long to
be written.
-/

namespace Semijoin

/-! ## Schemas -/

/-- Whether a field can be read in place of another one, whatever it is called. -/
def Field.Refines (g f : Field) : Prop := g.type = f.type ∧ (g.nullable → f.nullable)

theorem Field.Refines.refl (f : Field) : f.Refines f := ⟨rfl, id⟩

/-- Position by position, a schema can be read in place of another one. -/
def SchemaRefines (fields' fields : List Field) : Prop := List.Forall₂ Field.Refines fields' fields

section Schemas

variable {fields fields' more more' : List Field} {c : Column} {e : Expr}

theorem SchemaRefines.refl (fields : List Field) : SchemaRefines fields fields :=
  List.forall₂_same.mpr fun f _ => .refl f

theorem SchemaRefines.append (h : SchemaRefines fields' fields) (hmore : SchemaRefines more' more) :
    SchemaRefines (fields' ++ more') (fields ++ more) :=
  List.rel_append h hmore

theorem SchemaRefines.atPosition? {i : Int} {f : Field} (h : SchemaRefines fields' fields)
    (hf : atPosition? fields i = some f) :
    ∃ f', atPosition? fields' i = some f' ∧ f'.Refines f := by
  obtain ⟨hpos, hget⟩ := atPosition?_eq_some_iff.mp hf
  obtain ⟨hlt, rfl⟩ := List.getElem?_eq_some_iff.mp hget
  have hlt' : i.toNat < fields'.length := h.length_eq ▸ hlt
  exact ⟨fields'[i.toNat], atPosition?_eq_some_iff.mpr ⟨hpos, List.getElem?_eq_getElem hlt'⟩,
    h.get hlt' hlt⟩

theorem Column.FitsIn.refine (hc : c.FitsIn fields) (h : SchemaRefines fields' fields) :
    c.FitsIn fields' := by
  obtain ⟨f, hat, htype, hnull⟩ := hc
  obtain ⟨f', hat', htype', hnull'⟩ := h.atPosition? hat
  exact ⟨f', hat', htype.trans htype'.symm, fun hf' => hnull (hnull' hf')⟩

theorem Expr.FitsIn.refine (he : e.FitsIn fields) (h : SchemaRefines fields' fields) :
    e.FitsIn fields' :=
  fun c hc => (he c hc).refine h

end Schemas

/-! ## Nodes over other children -/

namespace Plan

/-- The names that a projection gives to its outputs. -/
def aliases : Plan → List Text
  | project _ _ outputs => outputs.map Output.name
  | scan .. | filter .. | join .. | foreign .. => []

/-- Whether a plan can stand in for another one. -/
def StandsInFor (c' c : Plan) : Prop := SchemaRefines c'.schema c.schema

variable {p c child : Plan} {cs : List Plan} {next : Nat} {i : Int}

theorem StandsInFor.refl (c : Plan) : c.StandsInFor c := SchemaRefines.refl c.schema

theorem StandsInFor.of_eq (h : child.schema = c.schema) : child.StandsInFor c := by
  rw [StandsInFor, h]
  exact SchemaRefines.refl c.schema

theorem map_schema_eq_of_forall₂ {cs' : List Plan}
    (h : List.Forall₂ (fun c' c : Plan => c'.schema = c.schema) cs' cs) :
    cs'.map schema = cs.map schema := by
  rwa [← List.forall₂_eq_eq_eq, List.forall₂_map_left_iff, List.forall₂_map_right_iff]

@[simp] theorem exprs_atop (id : Nat) (p : Plan) (cs : List Plan) :
    (p.atop id cs).exprs = p.exprs := by
  unfold Plan.atop
  split <;> rfl

@[simp] theorem aliases_atop (id : Nat) (p : Plan) (cs : List Plan) :
    (p.atop id cs).aliases = p.aliases := by
  unfold Plan.atop
  split <;> rfl

theorem atop_children (p : Plan) : p.atop p.id p.children = p := by
  cases p <;> rfl

theorem children_atop (id : Nat) (hlength : cs.length = p.children.length) :
    (p.atop id cs).children = cs := by
  cases p with
  | scan => exact (List.length_eq_zero_iff.mp hlength).symm
  | filter | project =>
    obtain ⟨input, rfl⟩ := List.length_eq_one_iff.mp hlength
    rfl
  | join =>
    obtain ⟨left, right, rfl⟩ := List.length_eq_two.mp hlength
    rfl
  | foreign => rfl

theorem id_atop (id : Nat) (hne : p.children ≠ []) (hlength : cs.length = p.children.length) :
    (p.atop id cs).id = id := by
  cases p with
  | scan => exact absurd rfl hne
  | filter | project =>
    obtain ⟨input, rfl⟩ := List.length_eq_one_iff.mp hlength
    rfl
  | join =>
    obtain ⟨left, right, rfl⟩ := List.length_eq_two.mp hlength
    rfl
  | foreign => rfl

/-- A node passes its check again over children that can stand in for those it has. -/
theorem check_atop (id : Nat) (hp : p.check = .ok ())
    (hcs : List.Forall₂ StandsInFor cs p.children) : (p.atop id cs).check = .ok () := by
  cases p with
  | scan =>
    cases hcs
    exact hp
  | filter =>
    obtain _ | ⟨hinput, ⟨⟩⟩ := hcs
    obtain ⟨htype, hfits⟩ := checkFilter_eq_ok_iff.mp hp
    exact checkFilter_eq_ok_iff.mpr ⟨htype, hfits.refine hinput⟩
  | project =>
    obtain _ | ⟨hinput, ⟨⟩⟩ := hcs
    obtain ⟨hne, hfits⟩ := checkProject_eq_ok_iff.mp hp
    exact checkProject_eq_ok_iff.mpr ⟨hne, fun o ho => (hfits o ho).refine hinput⟩
  | join id kind left right condition =>
    obtain _ | ⟨hleft, _ | ⟨hright, ⟨⟩⟩⟩ := hcs
    cases condition with
    | none => exact hp
    | some e =>
      obtain ⟨htype, hfits⟩ := (checkJoin_some_eq_ok_iff kind).mp hp
      -- Both inputs may have changed; the left one is still as wide, so the right one is not moved.
      exact (checkJoin_some_eq_ok_iff kind).mpr ⟨htype, hfits.refine (hleft.append hright)⟩
  | foreign => rfl

/-- Whatever relates a schema to itself and goes along with appending relates the schema of a node
over other children to that of the node, if it relates those of the children. What a foreign node
makes of the schemas of its children has to go along with it, too. -/
theorem schema_atop {R : List Field → List Field → Prop} (hrefl : ∀ fields, R fields fields)
    (happend : ∀ {fields fields' more more'}, R fields' fields → R more' more →
      R (fields' ++ more') (fields ++ more)) (id : Nat)
    (hcs : List.Forall₂ (fun c' c => R c'.schema c.schema) cs p.children)
    (hforeign : ∀ id kind children, p = foreign id kind children →
      R (kind.schema (cs.map schema)) (kind.schema (children.map schema))) :
    R (p.atop id cs).schema p.schema := by
  cases p with
  | scan =>
    cases hcs
    exact hrefl _
  | filter =>
    obtain _ | ⟨hinput, ⟨⟩⟩ := hcs
    exact hinput
  | project =>
    obtain _ | ⟨-, ⟨⟩⟩ := hcs
    exact hrefl _
  | join id kind left right condition =>
    obtain _ | ⟨hleft, _ | ⟨hright, ⟨⟩⟩⟩ := hcs
    cases kind with
    | inner => exact happend hleft hright
    | semi | anti => exact hleft
  | foreign id kind children => simpa [schema, Plan.atop] using hforeign id kind children rfl

/-- All but foreign nodes take other children if there are as many as before. -/
theorem accepts_eq_ok (hlength : cs.length = p.children.length)
    (hforeign : ∀ id kind children, p = foreign id kind children →
      kind.rebuild (cs.map schema) = .ok ()) : p.accepts cs = .ok () := by
  cases p with
  | foreign id kind children =>
    rw [accepts, hforeign id kind children rfl]
    rfl
  | scan | filter | project | join => exact if_pos hlength

/-- Only a foreign node can refuse as many children as it has. -/
theorem accepts_eq_error {fault : ChildFault} (hlength : cs.length = p.children.length)
    (h : p.accepts cs = .error fault) :
    ∃ id kind children own, p = foreign id kind children ∧
      kind.rebuild (cs.map schema) = .error own ∧ fault = .foreign own := by
  cases p with
  | foreign id kind children =>
    cases hown : kind.rebuild (cs.map schema) with
    | error own =>
      exact ⟨id, kind, children, own, rfl, hown, by simp_all [accepts, Except.mapError]⟩
    | ok u => simp [accepts, hown, Except.mapError] at h
  | scan | filter | project | join => exact nomatch (if_pos hlength).symm.trans h

/-- Over children that it accepts, a node that passes its check there is built anew. -/
theorem withChildren_eq_ok (hscan : ∀ id relation fields, p ≠ scan id relation fields)
    (haccepts : p.accepts cs = .ok ()) (hcheck : (p.atop next cs).check = .ok ()) :
    p.withChildren cs next = .ok (p.atop next cs, next + 1) := by
  cases p with
  | scan id relation fields => exact absurd rfl (hscan id relation fields)
  | filter | project | join | foreign =>
    simp [withChildren, haccepts, Build.node, hcheck, Bind.bind, Except.bind, Except.map,
      Except.mapError]

theorem withChildren_eq_error {fault : ChildFault} (h : p.accepts cs = .error fault) :
    p.withChildren cs next = .error fault := by
  simp only [withChildren, h, Bind.bind, Except.bind]

/-- After an exchange in one place the children are related to the old ones one by one. -/
theorem forall₂_set {R : Plan → Plan → Prop} {n : Nat} (hrefl : ∀ c, R c c) (hc : cs[n]? = some c)
    (hchild : R child c) : List.Forall₂ R (cs.set n child) cs := by
  refine List.forall₂_iff_get.mpr ⟨List.length_set, fun m hset hm => ?_⟩
  simp only [List.get_eq_getElem, List.getElem_set]
  split
  · next heq =>
    subst heq
    obtain rfl := Option.some.inj (hc.symm.trans (List.getElem?_eq_getElem hm))
    exact hchild
  · exact hrefl _

/-- A foreign node can be built anew over children that can stand in for its own, and the node that
is built can stand in for it. -/
def TakesStandIns (p : Plan) : Prop :=
  ∀ id kind children, p = foreign id kind children →
    ∀ cs, List.Forall₂ StandsInFor cs children → kind.rebuild (cs.map schema) = .ok () ∧
      SchemaRefines (kind.schema (cs.map schema)) (kind.schema (children.map schema))

theorem replaceChild_eq_ok (hc : atPosition? p.children i = some c)
    (haccepts : p.accepts (p.children.set i.toNat child) = .ok ())
    (hcheck : (p.atop next (p.children.set i.toNat child)).check = .ok ()) :
    p.replaceChild i child next = .ok (p.atop next (p.children.set i.toNat child), next + 1) := by
  have hrange : 0 ≤ i ∧ i < p.children.length := by
    by_contra hout
    exact nomatch (atPosition?_eq_none_iff.mpr hout).symm.trans hc
  rw [replaceChild, if_pos hrange]
  refine withChildren_eq_ok ?_ haccepts hcheck
  rintro id relation fields rfl
  simp [children, atPosition?] at hc

theorem replaceChild_eq_error (hout : ¬ (0 ≤ i ∧ i < p.children.length)) :
    p.replaceChild i child next =
      .error (if p.hasWritableLabel && Value.isShort i then .noChild p.label i else .tooLong) := by
  rw [replaceChild, if_neg hout]
  split <;> rfl

/-- A node that passed its check takes every child that can stand in for the one it has at that
position: the result is the node itself over the new children, the others of which stay what they
are, and it can stand in for the node. If the schema of the child is the old one, so is that of the
node. Of a foreign node this has to be known. An index without a child is refused as such if the
label of the node and the index can be written, and as too long to be written otherwise. -/
theorem replaceChild_standsIn {p : Plan} (hp : p.check = .ok ()) (hforeign : p.TakesStandIns)
    (i : Int) (child : Plan) (next : Nat) :
    (∀ c, atPosition? p.children i = some c → child.StandsInFor c →
      ∃ q, p.replaceChild i child next = .ok (q, next + 1) ∧
        q = p.atop next (p.children.set i.toNat child) ∧
        q.children = p.children.set i.toNat child ∧
        q.exprs = p.exprs ∧ q.aliases = p.aliases ∧
        q.StandsInFor p ∧
        (child.schema = c.schema → q.schema = p.schema)) ∧
    (¬ (0 ≤ i ∧ i < p.children.length) →
      p.replaceChild i child next = .error
        (if p.hasWritableLabel && Value.isShort i then .noChild p.label i else .tooLong)) := by
  refine ⟨fun c hc hstands => ?_, replaceChild_eq_error⟩
  have hget := (atPosition?_eq_some_iff.mp hc).2
  have hchildren : List.Forall₂ StandsInFor (p.children.set i.toNat child) p.children :=
    forall₂_set StandsInFor.refl hget hstands
  have haccepts : p.accepts (p.children.set i.toNat child) = .ok () := by
    refine accepts_eq_ok List.length_set ?_
    rintro id kind children rfl
    exact (hforeign id kind children rfl _ hchildren).1
  refine ⟨_, replaceChild_eq_ok hc haccepts (check_atop next hp hchildren), rfl,
    children_atop next List.length_set, exprs_atop .., aliases_atop .., ?_, fun hschema => ?_⟩
  · refine schema_atop SchemaRefines.refl SchemaRefines.append next hchildren ?_
    rintro id kind children rfl
    exact (hforeign id kind children rfl _ hchildren).2
  · have hschemas : List.Forall₂ (fun c' c : Plan => c'.schema = c.schema)
        (p.children.set i.toNat child) p.children := forall₂_set (fun _ => rfl) hget hschema
    refine schema_atop (fun _ => rfl) (fun hl hr => by rw [hl, hr]) next hschemas ?_
    rintro id kind children rfl
    exact congrArg kind.schema (map_schema_eq_of_forall₂ hschemas)

-- A scan of another relation, whose column has another name and is never null, takes the place of
-- the right input.
theorem openOrders_standsIn :
    let lines := Plan.scan 3 "lines" [⟨"order", .integer, true⟩]
    let shipped := Plan.scan 5 "shipped" [⟨"of", .integer, false⟩]
    openOrders.check = .ok () ∧
      atPosition? openOrders.children 1 = some lines ∧
      shipped.StandsInFor lines ∧
      ∃ q, openOrders.replaceChild 1 shipped 6 = .ok (q, 7) ∧
        q.children = openOrders.children.set 1 shipped ∧ q.StandsInFor openOrders := by
  intro lines shipped
  have hcheck : openOrders.check = .ok () := openOrders_built.checked.self
  have hforeign : openOrders.TakesStandIns := fun _ _ _ h => nomatch h
  have hstands : shipped.StandsInFor lines := .cons ⟨rfl, fun h => nomatch h⟩ .nil
  obtain ⟨q, hq, -, hchildren, -, -, hq', -⟩ :=
    (replaceChild_standsIn hcheck hforeign 1 shipped 6).1 lines rfl hstands
  exact ⟨hcheck, rfl, hstands, q, hq, hchildren, hq'⟩

/-- A filter on an integer of more digits than can be written. -/
def farOrders : Plan :=
  .filter 1 (.scan 0 "orders" [⟨"id", .integer, false⟩])
    (.bin .eq (.col ⟨0, .integer, false, some "id"⟩) (.lit ⟨0, .fraction (10 ^ 5000), .integer⟩))

/-- That the filter has no second child is not what its caller is told. -/
theorem farOrders_untold :
    farOrders.Checked ∧ ¬ (0 ≤ (1 : Int) ∧ 1 < (farOrders.children.length : Int)) ∧
      ∀ child next, farOrders.replaceChild 1 child next = .error .tooLong := by
  have hout : ¬ (0 ≤ (1 : Int) ∧ 1 < (farOrders.children.length : Int)) := by decide
  have hlabel : farOrders.hasWritableLabel = false := by decide +kernel
  refine ⟨?_, hout, fun child next => ?_⟩
  · simp only [farOrders, Checked, all_filter, all_scan]
    exact ⟨rfl, rfl⟩
  · rw [replaceChild_eq_error hout, hlabel]
    rfl

end Plan

end Semijoin
