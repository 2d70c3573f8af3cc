import Semijoin.Cost.Estimate
import Semijoin.Proofs.Composition

/-!
# Shifting columns

Moving all column positions is an action of the integers on expressions of known kinds: `shifted`
moves every reference without looking at what stays equal, and the economical `shift?` returns just
that, names included, because an operation that it keeps has nothing to move. Everything that is
read off an expression moves along or does not notice. What an expression reads after a substitution
is what the replacements read, and the rest of its own positions moved.
-/

namespace Semijoin

namespace Column

@[simp] theorem shift_zero (c : Column) : c.shift 0 = c := by
  simp [shift]

@[simp] theorem shift_shift (c : Column) (a b : Int) : (c.shift a).shift b = c.shift (a + b) := by
  simp [shift, Int.add_assoc]

theorem eq_zero_of_same_shift {c : Column} {a : Int} (h : (c.shift a).same c) : a = 0 := by
  simp only [same, shift, Bool.and_eq_true] at h
  have hindex : c.index + a = c.index := of_decide_eq_true h.1.1
  omega

end Column

namespace Positions

theorem map_add_insert (i a : Int) (js : Positions) :
    (insert i js).map (· + a) = insert (i + a) (js.map (· + a)) := by
  induction js with
  | nil => rfl
  | cons j js ih =>
    -- The comparisons that place `i` come out the same for the moved positions.
    simp only [insert, List.map_cons, Int.add_lt_add_iff_right, Int.add_left_inj]
    split
    · rfl
    · split
      · rfl
      · rw [List.map_cons, ih]

theorem map_add_union (is js : Positions) (a : Int) :
    (union is js).map (· + a) = union (is.map (· + a)) (js.map (· + a)) := by
  induction is with
  | nil => rfl
  | cons i is ih =>
    simp only [union, List.foldr_cons, List.map_cons] at ih ⊢
    rw [map_add_insert, ih]

end Positions

namespace Expr

variable {e e' : Expr} {a b offset : Int} {replacements : List Expr}

/-- The expression with every column position moved by an offset. -/
def shifted (e : Expr) (offset : Int) : Expr := e.bind fun c => col (c.shift offset)

@[simp] theorem shifted_col (c : Column) (a : Int) : (col c).shifted a = col (c.shift a) := rfl

@[simp] theorem shifted_lit (l : Literal) (a : Int) : (lit l).shifted a = lit l := rfl

@[simp] theorem shifted_bin (op : BinaryOperator) (left right : Expr) (a : Int) :
    (bin op left right).shifted a = bin op (left.shifted a) (right.shifted a) := rfl

@[simp] theorem shifted_un (op : UnaryOperator) (operand : Expr) (a : Int) :
    (un op operand).shifted a = un op (operand.shifted a) := rfl

@[simp] theorem shifted_foreign (x : ForeignExpr) (a : Int) :
    (foreign x).shifted a = foreign x := rfl

/-! ## The action -/

@[simp] theorem shifted_zero (e : Expr) : e.shifted 0 = e := by
  induction e with
  | col | lit | foreign => simp
  | bin op left right ihl ihr => rw [shifted_bin, ihl, ihr]
  | un op operand ih => rw [shifted_un, ih]

@[simp] theorem shifted_shifted (e : Expr) (a b : Int) :
    (e.shifted a).shifted b = e.shifted (a + b) := by
  simp only [shifted, bind_bind, bind, Column.shift_shift]

theorem isKnown_shifted (he : e.isKnown) (a : Int) : (e.shifted a).isKnown :=
  isKnown_bind (fun _ _ => rfl) he

/-- An expression that shifting leaves equal to itself has nothing to move. -/
theorem shifted_eq_of_same (h : (e.shifted a).same e) : e.shifted a = e := by
  induction e with
  | col c => simp [Column.eq_zero_of_same_shift (by simpa [same, same?] using h)]
  | lit | foreign => rfl
  | bin op left right ihl ihr =>
    obtain ⟨hl, hr⟩ := same_bin h
    rw [shifted_bin, ihl hl, ihr hr]
  | un op operand ih => rw [shifted_un, ih (same_un h)]

theorem shift?_eq_shifted (he : e.isKnown) (a : Int) : e.shift? a = some (e.shifted a) := by
  induction e with
  | col | lit => rfl
  | bin op left right ihl ihr =>
    simp only [isKnown, Bool.and_eq_true] at he
    refine mapColumns?_bin_eq_some.mpr ⟨_, _, ihl he.1, ihr he.2, ?_⟩
    split
    · next hkept =>
      simp only [Bool.and_eq_true] at hkept
      rw [shifted_bin, shifted_eq_of_same hkept.1, shifted_eq_of_same hkept.2]
    · rfl
  | un op operand ih =>
    refine mapColumns?_un_eq_some.mpr ⟨_, ih he, ?_⟩
    split
    · next hkept => rw [shifted_un, shifted_eq_of_same hkept]
    · rfl
  | foreign => simp [isKnown] at he

/-! ## What is read off a shifted expression -/

theorem positions_shifted (e : Expr) (a : Int) :
    (e.shifted a).positions = e.positions.map (· + a) := by
  induction e with
  | col | lit | foreign => rfl
  | bin op left right ihl ihr =>
    rw [shifted_bin, positions, ihl, ihr, positions, Positions.map_add_union]
  | un op operand ih => exact ih

theorem type_shifted (e : Expr) (a : Int) : (e.shifted a).type = e.type := type_bind fun _ _ => rfl

theorem mayBeNull_shifted (e : Expr) (a : Int) : (e.shifted a).mayBeNull = e.mayBeNull := by
  induction e with
  | col | lit | foreign => rfl
  | bin op left right ihl ihr => simp only [shifted_bin, mayBeNull, ihl, ihr]
  | un op operand ih => simp only [shifted_un, mayBeNull, ih]

theorem selectivity_shifted {α : Type} [Arithmetic α] (e : Expr) (a : Int) :
    ((e.shifted a).selectivity : α) = e.selectivity := by
  induction e with
  | col | lit | foreign => rfl
  | bin op left right ihl ihr =>
    cases op with
    | and | or => simp only [shifted_bin, selectivity, ihl, ihr]
    | _ => rfl
  | un op operand ih =>
    cases op with
    | not => simp only [shifted_un, selectivity, ih]
    | _ => rfl

/-! ## What is read after a substitution -/

theorem positions_unnamed (e : Expr) : e.unnamed.positions = e.positions := by
  induction e with
  | col | lit | foreign => rfl
  | bin op left right ihl ihr => rw [unnamed_bin, positions, ihl, ihr, positions]
  | un op operand ih => exact ih

theorem positions_congr (h : e.unnamed = e'.unnamed) : e.positions = e'.positions := by
  rw [← positions_unnamed, h, positions_unnamed]

theorem exists_mem_positions {P : Int → Prop} :
    (∃ i ∈ e.positions, P i) ↔ ∃ c ∈ e.columns, P c.index := by
  constructor
  · rintro ⟨i, hi, hP⟩
    obtain ⟨c, hc, rfl⟩ := mem_positions.mp hi
    exact ⟨c, hc, hP⟩
  · rintro ⟨c, hc, hP⟩
    exact ⟨c.index, mem_positions.mpr ⟨c, hc, rfl⟩, hP⟩

theorem mem_positions_bind {f : Column → Expr} {j : Int} :
    j ∈ (e.bind f).positions ↔ ∃ c ∈ e.columns, j ∈ (f c).positions := by
  simp only [mem_positions, columns_bind, List.mem_flatMap]
  grind

/-- One reference becomes the references of its replacement, or else the one it moves to. -/
theorem mem_positions_replacement {c : Column} {j : Int} :
    j ∈ (replacement replacements offset c).positions ↔
      (∃ r, atPosition? replacements c.index = some r ∧ j ∈ r.positions) ∨
        (¬ Replaces replacements c.index ∧ j = c.index + offset) := by
  by_cases h : Replaces replacements c.index
  · obtain ⟨r, hr⟩ := h.exists_getElem?
    rw [replacement_of_getElem? h.1 hr]
    simp [atPosition?, h.1, hr, h]
  · have hnone : atPosition? replacements c.index = none := atPosition?_eq_none_iff.mpr h
    rw [replacement_of_not_replaces h]
    simp [positions, Column.shift, hnone, h]

/-- After a substitution an expression reads what the replacements of its leading positions read,
and its other positions moved by the offset. -/
theorem mem_positions_substitute? {j : Int} (h : e.substitute? replacements offset = some e') :
    j ∈ e'.positions ↔
      (∃ i ∈ e.positions, ∃ r, atPosition? replacements i = some r ∧ j ∈ r.positions) ∨
        ∃ i ∈ e.positions, ¬ Replaces replacements i ∧ j = i + offset := by
  rw [positions_congr (unnamed_mapColumns? h), mem_positions_bind]
  simp only [exists_mem_positions, mem_positions_replacement, and_or_left, exists_or]

/-- Shifting an expression of known kinds always has a result. Shifting twice comes to the very same
expression as shifting by the sum, names and all; shifting by nothing changes nothing, and shifting
back undoes a shift. Positions move by the offset, and type, nullability and selectivity stay. A
substitution has a result as well, and it reads what the replacements read together with the other
positions moved. -/
theorem shifting_acts {e : Expr} (he : e.isKnown) :
    (∀ a b, ∃ e₁ e₂, e.shift? a = some e₁ ∧ e₁.shift? b = some e₂ ∧ e.shift? (a + b) = some e₂) ∧
      e.shift? 0 = some e ∧
      (∀ k, ∃ e₁, e.shift? k = some e₁ ∧ e₁.shift? (-k) = some e) ∧
      (∀ a, ∃ e₁, e.shift? a = some e₁ ∧
        e₁.positions = e.positions.map (· + a) ∧
        e₁.type = e.type ∧
        e₁.mayBeNull = e.mayBeNull ∧
        ∀ (α : Type) [Arithmetic α], (e₁.selectivity : α) = e.selectivity) ∧
      ∀ replacements offset, ∃ e', e.substitute? replacements offset = some e' ∧
        ∀ j, j ∈ e'.positions ↔
          (∃ i ∈ e.positions, ∃ r, atPosition? replacements i = some r ∧ j ∈ r.positions) ∨
            ∃ i ∈ e.positions, ¬ Replaces replacements i ∧ j = i + offset := by
  have hshift (a : Int) : e.shift? a = some (e.shifted a) := shift?_eq_shifted he a
  have htwice (a b : Int) : (e.shifted a).shift? b = some (e.shifted (a + b)) := by
    rw [shift?_eq_shifted (isKnown_shifted he a), shifted_shifted]
  refine ⟨fun a b => ⟨_, _, hshift a, htwice a b, hshift (a + b)⟩, ?_, fun k => ?_, fun a => ?_,
    fun replacements offset => ?_⟩
  · rw [hshift, shifted_zero]
  · refine ⟨_, hshift k, ?_⟩
    rw [htwice, Int.add_right_neg, shifted_zero]
  · exact ⟨_, hshift a, positions_shifted e a, type_shifted e a, mayBeNull_shifted e a,
      fun _ _ => selectivity_shifted e a⟩
  · obtain ⟨e', he'⟩ := exists_mapColumns? (replacement replacements offset) he
    exact ⟨e', he', fun j => mem_positions_substitute? he'⟩

end Expr

/-- A condition with a negative position and an operand that has no column to move. -/
def spreadCondition : Expr :=
  .bin .or crossedCondition
    (.bin .lt (.col ⟨-2, .integer, true, some "c"⟩) (.un .negate (.lit ⟨0, .int 4, .integer⟩)))

theorem spreadCondition_shifts :
    let sum := Expr.bin .add (.col ⟨4, .integer, true, none⟩) (.col ⟨6, .integer, true, none⟩)
    spreadCondition.isKnown ∧
      (∃ e₁, spreadCondition.shift? 5 = some e₁ ∧ e₁.shift? (-5) = some spreadCondition) ∧
      (∃ e₁, spreadCondition.shift? 5 = some e₁ ∧ e₁.positions = [3, 5, 6, 8]) ∧
      ∃ e', spreadCondition.substitute? [sum] 7 = some e' ∧
        4 ∈ e'.positions ∧ 5 ∈ e'.positions := by
  intro sum
  have hknown : spreadCondition.isKnown := rfl
  obtain ⟨-, -, hback, hread, hsubstitute⟩ := Expr.shifting_acts hknown
  obtain ⟨e₁, he₁, hpositions, -⟩ := hread 5
  obtain ⟨e', he', hmem⟩ := hsubstitute [sum] 7
  have hreplaced : 4 ∈ e'.positions := (hmem 4).mpr (.inl ⟨0, by decide, sum, rfl, by decide⟩)
  have hmoved : 5 ∈ e'.positions := (hmem 5).mpr (.inr ⟨-2, by decide, by decide, rfl⟩)
  exact ⟨hknown, hback 5, ⟨e₁, he₁, hpositions⟩, e', he', hreplaced, hmoved⟩

end Semijoin
