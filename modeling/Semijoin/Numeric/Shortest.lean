import Semijoin.Numeric.Binary64

/-!
# Decimal text of doubles

A double is written with the fewest significant digits that read back as the same double. Where
two such numerals of that length exist the nearer one is taken, and of two equally near ones the
one with the even last digit. Reading goes through the exact rational value of the numeral.
-/

namespace Semijoin

/-- The greatest `e` with `10 ^ e ≤ q`, for a positive `q`. -/
def floorLog10 (q : Rat) : Int :=
  let guess : Int := (Nat.repr q.num.natAbs).length - (Nat.repr q.den).length
  if (10 : Rat) ^ guess ≤ q then guess else guess - 1

/-- A decimal numeral: `digits * 10 ^ exponent`. -/
structure Numeral where
  digits : Nat
  exponent : Int
deriving DecidableEq, Inhabited

namespace Numeral

def value (d : Numeral) : Rat := d.digits * 10 ^ d.exponent

/-- The numeral of the same value whose digits do not end in zeros; zero has the exponent zero. -/
def normal (d : Numeral) : Numeral :=
  if d.digits = 0 then ⟨0, 0⟩
  else
    let zeros := ((Nat.repr d.digits).toList.reverse.takeWhile (· = '0')).length
    ⟨d.digits / Nat.pow 10 zeros, d.exponent + zeros⟩

/-- Whether `q` is the value of a numeral. Numerals that are far too large or too fine for `q` are
recognised by their exponent, so a huge one costs nothing: a whole number has more digits than its
numeral has zeros at the end, and a numeral with `k` places has a denominator of at least
`2 ^ k`. -/
def isValue (d : Numeral) (q : Rat) : Bool :=
  let d := d.normal
  if (Nat.repr q.num.natAbs).length < d.exponent ∨ (q.den.log2 : Int) < -d.exponent then false
  else d.value = q

/-- The neighbour of a positive `q` with `count` significant digits that reads back as the double
`q`, if there is one. -/
def readingBack? (q : Rat) (count : Nat) : Option Numeral :=
  let exponent := floorLog10 q + 1 - count
  let low := (q / 10 ^ exponent).floor.toNat
  let below : Numeral := ⟨low, exponent⟩
  let above : Numeral := ⟨low + 1, exponent⟩
  let readsBack (d : Numeral) : Bool := Binary64.ofRat d.value == .finite q
  match readsBack below, readsBack above with
  | true, true =>
    if q - below.value < above.value - q then some below
    else if above.value - q < q - below.value then some above
    else if low % 2 = 0 then some below else some above
  | true, false => some below
  | false, true => some above
  | false, false => none

/-- The numeral with the fewest digits that reads back as the positive double `q`. Seventeen
digits always suffice. -/
def shortest (q : Rat) : Numeral :=
  ((List.range' 1 17).findSome? (readingBack? q)).getD default

/-- The double nearest to a numeral. Numerals far outside the range of the doubles are recognised
by their size alone, so a huge exponent costs nothing. -/
def toBinary64 (d : Numeral) : Binary64 :=
  let magnitude := d.exponent + (Nat.repr d.digits).length
  if d.digits = 0 ∨ magnitude < -400 then .zero
  else if 400 < magnitude then .posInf
  else .ofRat d.value

/-- Splits off the leading decimal digits: their value, their number and the rest. -/
def takeDigits (cs : List Char) : Nat × Nat × List Char :=
  let ds := cs.takeWhile Char.isDigit
  (ds.foldl (fun n c => 10 * n + (c.toNat - '0'.toNat)) 0, ds.length, cs.dropWhile Char.isDigit)

/-- Reads the exponent part of a numeral; an absent one counts as zero. -/
def readExponent? : List Char → Option Int
  | [] => some 0
  | c :: cs =>
    if c ≠ 'e' ∧ c ≠ 'E' then none
    else
      let (negative, cs) := match cs with
        | '-' :: cs => (true, cs)
        | '+' :: cs => (false, cs)
        | cs => (false, cs)
      match takeDigits cs with
      | (n, _ + 1, []) => some (if negative then -n else n)
      | _ => none

/-- Reads an unsigned numeral such as `12`, `1.5`, `.5` or `1e-05`. -/
def ofChars? (cs : List Char) : Option Numeral :=
  let (whole, wholeSize, rest) := takeDigits cs
  let (fraction, fractionSize, rest) := match rest with
    | '.' :: rest => takeDigits rest
    | rest => (0, 0, rest)
  if wholeSize + fractionSize = 0 then none
  else (readExponent? rest).map fun e =>
    ⟨whole * Nat.pow 10 fractionSize + fraction, e - fractionSize⟩

end Numeral

/-- How doubles are laid out: scientific exponents from `least` up to but not including `bound`
are written positionally. -/
structure NumeralLayout where
  least : Int
  bound : Int
  nan : String
  posInf : String
  negInf : String

/-- A double in a message: positional from `0.0001` up to sixteen integer digits. -/
def NumeralLayout.plain : NumeralLayout where
  least := -4
  bound := 16
  nan := "nan"
  posInf := "inf"
  negInf := "-inf"

/-- A double in a JSON document: as in a message, with the usual words for what JSON lacks. -/
def NumeralLayout.json : NumeralLayout :=
  { NumeralLayout.plain with nan := "NaN", posInf := "Infinity", negInf := "-Infinity" }

namespace NumeralLayout

def zeros (n : Nat) : String := "".pushn '0' n

/-- Lays out the significant digits `ds` of a number whose first digit has weight
`10 ^ exponent`. -/
def render (layout : NumeralLayout) (ds : String) (exponent : Int) : String :=
  if layout.least ≤ exponent ∧ exponent < layout.bound then
    if exponent < 0 then "0." ++ zeros (-exponent - 1).toNat ++ ds
    else
      let whole := exponent.toNat + 1
      if ds.length ≤ whole then ds ++ zeros (whole - ds.length) ++ ".0"
      else (ds.take whole).toString ++ "." ++ (ds.drop whole).toString
  else
    let fraction := if ds.length ≤ 1 then "" else "." ++ (ds.drop 1).toString
    let size := Nat.repr exponent.natAbs
    let size := if size.length < 2 then "0" ++ size else size
    (ds.take 1).toString ++ fraction ++ "e" ++ (if exponent < 0 then "-" else "+") ++ size

/-- The text of a positive finite double. -/
def positive (layout : NumeralLayout) (q : Rat) : String :=
  let d := Numeral.shortest q
  let text := Nat.repr d.digits
  let significant := (text.dropEndWhile (· == '0')).toString
  layout.render significant (d.exponent + text.length - 1)

/-- The text of a double. -/
def text (layout : NumeralLayout) : Binary64 → String
  | .nan => layout.nan
  | .posInf => layout.posInf
  | .negInf => layout.negInf
  | .negZero => "-0.0"
  | .finite q =>
    if q = 0 then "0.0" else if q < 0 then "-" ++ layout.positive (-q) else layout.positive q

end NumeralLayout

end Semijoin
