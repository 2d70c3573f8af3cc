import Semijoin.Numeric.Binary64

/-!
# Arithmetic of estimates

The numbers that estimates are computed with. Estimates run on doubles; the same computation over
exact rationals says what is estimated apart from rounding.
-/

namespace Semijoin

/-- The operations that estimates use. `ofInt?` has no result for an integer out of range. -/
class Arithmetic (α : Type) where
  ofRat : Rat → α
  ofInt? : Int → Option α
  ofDouble : Binary64 → α
  add : α → α → α
  sub : α → α → α
  mul : α → α → α
  div : α → α → α
  lt : α → α → Bool

namespace Arithmetic

/-- Arithmetic on doubles. -/
instance double : Arithmetic Binary64 where
  ofRat := Binary64.ofRat
  ofInt? := Binary64.ofInt?
  ofDouble x := x
  add := Binary64.add
  sub := Binary64.sub
  mul := Binary64.mul
  div := Binary64.div
  lt := Binary64.lt

/-- Arithmetic on exact rationals; infinities and NaN, which no hint or finite configuration holds,
count as zero. -/
instance exact : Arithmetic Rat where
  ofRat q := q
  ofInt? n := some n
  ofDouble x := x.toRat?.getD 0
  add p q := p + q
  sub p q := p - q
  mul p q := p * q
  div p q := p / q
  lt p q := p < q

end Arithmetic

end Semijoin
