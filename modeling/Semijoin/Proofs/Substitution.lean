import Semijoin.Expr.Columns

/-!
# Substitution of columns

`Expr.mapColumns?` keeps an operation whose operands stay equal to the old ones. This module
separates that economy from the substitution itself: `Expr.bind` replaces every reference without
looking at what stays equal, and the two agree up to the names of columns, which are for display
only. Everything that types, checks and evaluates an expression ignores names, so later modules
reason about `Expr.bind` alone.
-/

namespace Semijoin

/-- A reference without its name. -/
def Column.unnamed (c : Column) : Column := { c with name := none }

namespace Expr

/-- Whether an expression consists of column references, literals and operators alone. -/
@[grind =] def isKnown : Expr → Bool
  | col _ | lit _ => true
  | bin _ left right => left.isKnown && right.isKnown
  | un _ operand => operand.isKnown
  | foreign _ => false

/-- Every column reference replaced. -/
@[grind =] def bind (f : Column → Expr) : Expr → Expr
  | col c => f c
  | lit l => lit l
  | bin op left right => bin op (left.bind f) (right.bind f)
  | un op operand => un op (operand.bind f)
  | foreign x => foreign x

/-- An expression without the names of its columns. -/
def unnamed : Expr → Expr := bind fun c => col c.unnamed

@[simp] theorem unnamed_col (c : Column) : (col c).unnamed = col c.unnamed := rfl

@[simp] theorem unnamed_lit (l : Literal) : (lit l).unnamed = lit l := rfl

@[simp] theorem unnamed_bin (op : BinaryOperator) (left right : Expr) :
    (bin op left right).unnamed = bin op left.unnamed right.unnamed := rfl

@[simp] theorem unnamed_un (op : UnaryOperator) (operand : Expr) :
    (un op operand).unnamed = un op operand.unnamed := rfl

@[simp] theorem unnamed_foreign (x : ForeignExpr) : (foreign x).unnamed = foreign x := rfl

/-! ## What replacing keeps -/

theorem columns_bind (f : Column → Expr) (e : Expr) :
    (e.bind f).columns = e.columns.flatMap fun c => (f c).columns := by
  induction e with
  | col | lit | foreign => simp [bind, columns]
  | bin op left right ihl ihr => simp [bind, columns, ihl, ihr]
  | un op operand ih => simp [bind, columns, ih]

theorem type_bind {f : Column → Expr} {e : Expr} (h : ∀ c ∈ e.columns, (f c).type = c.type) :
    (e.bind f).type = e.type := by
  induction e with
  | col c => exact h c (by simp [columns])
  | lit | foreign => rfl
  | bin op left right ihl _ =>
    have hl : (left.bind f).type = left.type :=
      ihl fun c hc => h c (by simp [columns, hc])
    simp [bind, type, hl]
  | un op operand ih => cases op <;> simp [bind, type, ih h]

theorem isKnown_bind {f : Column → Expr} {e : Expr} (hf : ∀ c ∈ e.columns, (f c).isKnown)
    (he : e.isKnown) : (e.bind f).isKnown := by
  induction e with
  | col c => exact hf c (by simp [columns])
  | lit => rfl
  | bin op left right ihl ihr =>
    simp only [isKnown, Bool.and_eq_true] at he
    simp only [bind, isKnown, Bool.and_eq_true]
    exact ⟨ihl (fun c hc => hf c (by simp [columns, hc])) he.1,
      ihr (fun c hc => hf c (by simp [columns, hc])) he.2⟩
  | un op operand ih => exact ih hf he
  | foreign => simp [isKnown] at he

theorem isWritable_bind {f : Column → Expr} {e : Expr} (hf : ∀ c ∈ e.columns, (f c).isWritable)
    (he : e.isWritable) : (e.bind f).isWritable := by
  induction e with
  | col c => exact hf c (by simp [columns])
  | lit | foreign => exact he
  | bin op left right ihl ihr =>
    simp only [isWritable, Bool.and_eq_true] at he
    simp only [bind, isWritable, Bool.and_eq_true]
    exact ⟨ihl (fun c hc => hf c (by simp [columns, hc])) he.1,
      ihr (fun c hc => hf c (by simp [columns, hc])) he.2⟩
  | un op operand ih => exact ih hf he

@[simp] theorem columns_unnamed (e : Expr) : e.unnamed.columns = e.columns.map Column.unnamed := by
  rw [unnamed, columns_bind, List.map_eq_flatMap]
  rfl

@[simp] theorem type_unnamed (e : Expr) : e.unnamed.type = e.type := type_bind fun _ _ => rfl

@[simp] theorem isKnown_unnamed (e : Expr) : e.unnamed.isKnown = e.isKnown := by
  induction e with
  | col | lit | foreign => rfl
  | bin op left right ihl ihr => simp [isKnown, ihl, ihr]
  | un op operand ih => simp [isKnown, ih]

@[simp] theorem isWritable_unnamed (e : Expr) : e.unnamed.isWritable = e.isWritable := by
  induction e with
  | col | lit | foreign => rfl
  | bin op left right ihl ihr => simp [isWritable, ihl, ihr]
  | un op operand ih => simp [isWritable, ih]

/-! ## Equality -/

theorem same?_self (e : Expr) : e.same? e = some true := by
  induction e with
  | col c => simp [same?, Column.same]
  | lit l => simp [same?, Literal.same?]
  | bin op left right ihl ihr => simp [same?, ihl, ihr]
  | un op operand ih => simp [same?, ih]
  | foreign x => simp [same?]

/-- Equality tells an operation from everything but operations with equal operands. -/
theorem same_bin {op op' : BinaryOperator} {l r l' r' : Expr}
    (h : (bin op l r).same (bin op' l' r')) : l.same l' ∧ r.same r' := by
  simp only [same, same?, decide_eq_true_eq] at h ⊢
  split at h
  · cases hl : l.same? l' with
    | none => simp [hl] at h
    | some b => cases b <;> simp_all
  · simp at h

theorem same_un {op op' : UnaryOperator} {e e' : Expr} (h : (un op e).same (un op' e')) :
    e.same e' := by
  by_cases hop : op = op'
  · simpa [same, same?, hop] using h
  · simp [same, same?, hop] at h

/-! ## The economical substitution -/

theorem mapColumns?_bin_eq_some {f : Column → Expr} {op : BinaryOperator} {l r e' : Expr} :
    (bin op l r).mapColumns? f = some e' ↔
      ∃ l' r', l.mapColumns? f = some l' ∧ r.mapColumns? f = some r' ∧
        (if l'.same l && r'.same r then bin op l r else bin op l' r') = e' := by
  simp [mapColumns?, Option.bind_eq_some_iff]

theorem mapColumns?_un_eq_some {f : Column → Expr} {op : UnaryOperator} {o e' : Expr} :
    (un op o).mapColumns? f = some e' ↔
      ∃ o', o.mapColumns? f = some o' ∧ (if o'.same o then un op o else un op o') = e' := by
  simp [mapColumns?, Option.bind_eq_some_iff]

/-- Only references are ever exchanged for something equal; an operation that comes back equal is
the old one. -/
theorem unnamed_eq_of_same {f : Column → Expr} {e e' : Expr} (h : e.mapColumns? f = some e')
    (hsame : e'.same e) : e'.unnamed = e.unnamed := by
  cases e with
  | col c =>
    obtain rfl : f c = e' := by simpa [mapColumns?] using h
    cases hf : f c with
    | col d =>
      rw [hf] at hsame
      simp [same, same?, Column.same] at hsame
      simp [Column.unnamed, hsame]
    | lit | bin | un | foreign => simp [hf, same, same?] at hsame
  | lit l =>
    obtain rfl : lit l = e' := by simpa [mapColumns?] using h
    rfl
  | bin op left right =>
    obtain ⟨l', r', -, -, rfl⟩ := mapColumns?_bin_eq_some.1 h
    by_cases hkept : (l'.same left && r'.same right) = true
    · rw [if_pos hkept]
    · rw [if_neg hkept] at hsame
      exact absurd (same_bin hsame) (by simpa using hkept)
  | un op operand =>
    obtain ⟨o', -, rfl⟩ := mapColumns?_un_eq_some.1 h
    by_cases hkept : o'.same operand = true
    · rw [if_pos hkept]
    · rw [if_neg hkept] at hsame
      exact absurd (same_un hsame) hkept
  | foreign => simp [mapColumns?] at h

/-- Up to names, keeping operations whose operands stay equal changes nothing. -/
theorem unnamed_mapColumns? {f : Column → Expr} {e e' : Expr} (h : e.mapColumns? f = some e') :
    e'.unnamed = (e.bind f).unnamed := by
  induction e generalizing e' with
  | col | lit =>
    simp only [mapColumns?, Option.some.injEq] at h
    rw [← h]
    rfl
  | bin op left right ihl ihr =>
    obtain ⟨l', r', hl, hr, rfl⟩ := mapColumns?_bin_eq_some.1 h
    rw [bind, unnamed_bin, ← ihl hl, ← ihr hr]
    split
    · rename_i hsame
      simp only [Bool.and_eq_true] at hsame
      rw [unnamed_eq_of_same hl hsame.1, unnamed_eq_of_same hr hsame.2, unnamed_bin]
    · rfl
  | un op operand ih =>
    obtain ⟨o', ho, rfl⟩ := mapColumns?_un_eq_some.1 h
    rw [bind, unnamed_un, ← ih ho]
    split
    · rename_i hsame
      rw [unnamed_eq_of_same ho hsame, unnamed_un]
    · rfl
  | foreign => simp [mapColumns?] at h

/-- Replacing columns succeeds wherever there is no expression of a foreign kind. -/
theorem exists_mapColumns? (f : Column → Expr) {e : Expr} (he : e.isKnown) :
    ∃ e', e.mapColumns? f = some e' := by
  induction e with
  | col | lit => exact ⟨_, rfl⟩
  | bin op left right ihl ihr =>
    simp only [isKnown, Bool.and_eq_true] at he
    obtain ⟨l', hl⟩ := ihl he.1
    obtain ⟨r', hr⟩ := ihr he.2
    simp [mapColumns?, hl, hr]
  | un op operand ih =>
    obtain ⟨o', ho⟩ := ih he
    simp [mapColumns?, ho]
  | foreign => simp [isKnown] at he

theorem isKnown_of_mapColumns? {f : Column → Expr} {e e' : Expr} (h : e.mapColumns? f = some e') :
    e.isKnown := by
  induction e generalizing e' with
  | col | lit => rfl
  | bin op left right ihl ihr =>
    obtain ⟨l', r', hl, hr, -⟩ := mapColumns?_bin_eq_some.1 h
    simp only [isKnown, ihl hl, ihr hr, Bool.and_self]
  | un op operand ih =>
    obtain ⟨o', ho, -⟩ := mapColumns?_un_eq_some.1 h
    exact ih ho
  | foreign => simp [mapColumns?] at h

end Expr

end Semijoin
