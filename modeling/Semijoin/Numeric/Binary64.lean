/-!
# Double-precision numbers

IEEE 754 double-precision numbers with the operations that estimates are made of. A finite number
is kept as the rational it stands for, so every operation is the exact one followed by
`Binary64.ofRat`, which rounds to the nearest double and sends a tie to the even significand.
-/

namespace Semijoin

/-- The integer nearest to a rational; of two nearest ones, the even one. -/
def roundHalfEven (q : Rat) : Int :=
  let low := q.floor
  let rest := q - low
  if rest < 1 / 2 then low
  else if 1 / 2 < rest then low + 1
  else if low % 2 = 0 then low else low + 1

/-- The greatest `e` with `2 ^ e ≤ q`, for a positive `q`. -/
def floorLog2 (q : Rat) : Int :=
  let guess : Int := (q.num.natAbs.log2 : Int) - (q.den.log2 : Int)
  if (2 : Rat) ^ guess ≤ q then guess else guess - 1

/-- A double-precision number. A finite number other than negative zero is given by its value. -/
inductive Binary64 where
  | nan
  | posInf
  | negInf
  | negZero
  | finite (value : Rat)
deriving DecidableEq, Inhabited

namespace Binary64

/-- The distance between neighbouring doubles at the magnitude of a nonzero `q`. Below the normal
range it stays the same. -/
def spacing (q : Rat) : Rat :=
  let exponent := floorLog2 (if q < 0 then -q else q) - 52
  2 ^ (if exponent < -1074 then -1074 else exponent)

/-- The least magnitude that no double reaches. -/
def limit : Rat := 2 ^ (1024 : Nat)

/-- The value of the double nearest to `q` on a grid without an upper end. -/
def roundValue (q : Rat) : Rat :=
  if q = 0 then 0 else roundHalfEven (q / spacing q) * spacing q

/-- The double nearest to `q`; a magnitude out of range becomes an infinity. -/
def ofRat (q : Rat) : Binary64 :=
  let r := roundValue q
  if limit ≤ r then posInf
  else if r ≤ -limit then negInf
  else if r = 0 ∧ q < 0 then negZero
  else finite r

/-- The double nearest to `q`, or nothing when its magnitude is out of range. -/
def ofRat? (q : Rat) : Option Binary64 :=
  let r := roundValue q
  if r < limit ∧ -limit < r then some (ofRat q) else none

/-- The double nearest to an integer, or nothing when its magnitude is out of range. -/
def ofInt? (n : Int) : Option Binary64 := ofRat? n

def zero : Binary64 := finite 0

def one : Binary64 := finite 1

/-- The value of a finite number. -/
def toRat? : Binary64 → Option Rat
  | finite q => some q
  | negZero => some 0
  | _ => none

/-- The sign bit. The sign of a NaN is never looked at. -/
def isNegative : Binary64 → Bool
  | nan | posInf => false
  | negInf | negZero => true
  | finite q => q < 0

def isNaN : Binary64 → Bool
  | nan => true
  | _ => false

def infinity (negative : Bool) : Binary64 := if negative then negInf else posInf

def signedZero (negative : Bool) : Binary64 := if negative then negZero else zero

def neg : Binary64 → Binary64
  | nan => nan
  | posInf => negInf
  | negInf => posInf
  | negZero => zero
  | finite q => if q = 0 then negZero else finite (-q)

def add (x y : Binary64) : Binary64 :=
  match x, y with
  | nan, _ | _, nan | posInf, negInf | negInf, posInf => nan
  | posInf, _ | _, posInf => posInf
  | negInf, _ | _, negInf => negInf
  | negZero, negZero => negZero
  | negZero, finite q | finite q, negZero => finite q
  | finite p, finite q => ofRat (p + q)

def sub (x y : Binary64) : Binary64 := x.add y.neg

def mul (x y : Binary64) : Binary64 :=
  let negative := x.isNegative != y.isNegative
  match x.toRat?, y.toRat? with
  | some p, some q => if p * q = 0 then signedZero negative else ofRat (p * q)
  | some p, none => if p = 0 ∨ y = nan then nan else infinity negative
  | none, some q => if q = 0 ∨ x = nan then nan else infinity negative
  | none, none => if x = nan ∨ y = nan then nan else infinity negative

def div (x y : Binary64) : Binary64 :=
  let negative := x.isNegative != y.isNegative
  match x.toRat?, y.toRat? with
  | some p, some q =>
    if q = 0 then (if p = 0 then nan else infinity negative)
    else if p = 0 then signedZero negative
    else ofRat (p / q)
  | some _, none => if y = nan then nan else signedZero negative
  | none, some _ => if x = nan then nan else infinity negative
  | none, none => nan

/-- Strict comparison: false as soon as a NaN takes part, and the two zeros are equal. -/
def lt (x y : Binary64) : Bool :=
  match x, y with
  | nan, _ | _, nan => false
  | negInf, y => y != negInf
  | _, negInf => false
  | x, posInf => x != posInf
  | posInf, _ => false
  | x, y => match x.toRat?, y.toRat? with
    | some p, some q => p < q
    | _, _ => false

end Binary64

end Semijoin
