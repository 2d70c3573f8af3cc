import Semijoin.Expr.Basic

/-!
# Columns of expressions

Which columns an expression reads, whether it can yield null, and the two ways of moving it to
another schema: shifting all positions, and replacing the leading positions by expressions while
shifting the others.
-/

namespace Semijoin

/-- A finite set of column positions, as an ascending list. -/
abbrev Positions := List Int

namespace Positions

def insert (i : Int) : Positions → Positions
  | [] => [i]
  | j :: js => if i < j then i :: j :: js else if i = j then j :: js else j :: insert i js

def union (is js : Positions) : Positions := is.foldr insert js

/-- The positions of a schema with `n` columns. -/
def below (n : Nat) : Positions := (List.range n).map Int.ofNat

end Positions

namespace Expr

/-- The column references of an expression from left to right. -/
@[grind =] def columns : Expr → List Column
  | col c => [c]
  | bin _ left right => left.columns ++ right.columns
  | un _ operand => operand.columns
  | lit _ | foreign _ => []

/-- The expression in SQL, if it can be written. -/
def sql? (e : Expr) : Option Text :=
  if e.isWritable && e.columns.all Column.isWritable then some e.sql else none

/-- The positions an expression reads. -/
def positions : Expr → Positions
  | col c => [c.index]
  | bin _ left right => Positions.union left.positions right.positions
  | un _ operand => operand.positions
  | lit _ | foreign _ => []

/-- Whether an expression reads allowed positions only. -/
def readsOnly (e : Expr) (allowed : Positions) : Bool :=
  e.positions.all fun i => allowed.contains i

/-- Whether an expression might yield null, as far as its form tells. -/
@[grind =] def mayBeNull : Expr → Bool
  | col c => c.nullable
  | lit l => l.isNull
  | un op operand => !op.isNullTest && operand.mayBeNull
  | bin op left right => op.isPartial || left.mayBeNull || right.mayBeNull
  | foreign _ => true

/-- Replaces every column reference. An operation whose operands stay equal to the old ones is kept
as it is, old column names included. There is no result for an expression of a foreign kind. -/
@[grind =] def mapColumns? (f : Column → Expr) : Expr → Option Expr
  | col c => some (f c)
  | lit l => some (lit l)
  | bin op left right => do
    let left' ← left.mapColumns? f
    let right' ← right.mapColumns? f
    return if left'.same left && right'.same right then bin op left right else bin op left' right'
  | un op operand => do
    let operand' ← operand.mapColumns? f
    return if operand'.same operand then un op operand else un op operand'
  | foreign _ => none

/-- Moves every column position by an offset. -/
def shift? (e : Expr) (offset : Int) : Option Expr :=
  e.mapColumns? fun c => col (c.shift offset)

/-- The expression for one column when leading positions are replaced. -/
def replacement (replacements : List Expr) (offset : Int) (c : Column) : Expr :=
  if 0 ≤ c.index then
    match replacements[c.index.toNat]? with
    | some e => e
    | none => col (c.shift offset)
  else col (c.shift offset)

/-- Replaces the leading column positions by expressions and moves all others by an offset. -/
def substitute? (e : Expr) (replacements : List Expr) (offset : Int) : Option Expr :=
  e.mapColumns? (replacement replacements offset)

end Expr

end Semijoin
