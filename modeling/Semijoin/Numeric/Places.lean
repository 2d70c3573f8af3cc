import Semijoin.Numeric.Shortest

/-!
# Decimal text with a given number of places

A nonnegative number is written with a fixed number of digits after the point, in scientific form
with a fixed number of them, or in whichever of the two forms suits its size. It is rounded
exactly, and a tie goes to the even last digit.
-/

namespace Semijoin

/-- What is written about a number apart from its value: whether the point stands even without
digits after it, and whether zeros at the end stay. -/
structure PlacesStyle where
  keepPoint : Bool
  keepZeros : Bool

namespace Places

/-- Digits before and after the point. -/
def joined (style : PlacesStyle) (whole fraction : List Char) : List Char :=
  let fraction :=
    if style.keepZeros then fraction else (fraction.reverse.dropWhile (· = '0')).reverse
  if fraction.isEmpty && !style.keepPoint then whole else whole ++ '.' :: fraction

/-- The digits of a number, with zeros in front up to `size` of them. -/
def digitsOf (size n : Nat) : List Char :=
  let digits := (Nat.repr n).toList
  List.replicate (size - digits.length) '0' ++ digits

/-- A number with `places` digits after the point. -/
def fixed (style : PlacesStyle) (places : Nat) (q : Rat) : List Char :=
  let digits := digitsOf (places + 1) (roundHalfEven (q * Nat.pow 10 places)).toNat
  joined style (digits.take (digits.length - places)) (digits.drop (digits.length - places))

/-- The `places + 1` leading digits of a number and the exponent of the first one. Rounding can
raise the exponent. -/
def leading (places : Nat) (q : Rat) : Nat × Int :=
  if q = 0 then (0, 0)
  else
    let exponent := floorLog10 q
    let n := (roundHalfEven (q / 10 ^ (exponent - places))).toNat
    if n < Nat.pow 10 (places + 1) then (n, exponent) else (n / 10, exponent + 1)

/-- An exponent with its sign and at least two digits. -/
def exponentText (exponent : Int) : List Char :=
  'e' :: (if exponent < 0 then '-' else '+') :: digitsOf 2 exponent.natAbs

/-- A number in scientific form with `places` digits after the point. -/
def scientific (style : PlacesStyle) (places : Nat) (q : Rat) : List Char :=
  let (n, exponent) := leading places q
  let digits := digitsOf (places + 1) n
  joined style (digits.take 1) (digits.drop 1) ++ exponentText exponent

/-- A number with `count` significant digits, in scientific form if its exponent is below -4 or
not below their count. -/
def general (style : PlacesStyle) (count : Nat) (q : Rat) : List Char :=
  let count := if count = 0 then 1 else count
  let (_, exponent) := leading (count - 1) q
  if exponent < -4 ∨ count ≤ exponent then scientific style (count - 1) q
  else fixed style (count - 1 - exponent).toNat q

end Places

end Semijoin
