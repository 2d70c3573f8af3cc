import Semijoin.Numeric.Reading

/-!
# Text of fractions

Reading a rational from a numerator and a denominator, or from a decimal numeral, with blanks around
it. The digits can be those of any script, with single underscores between them.
-/

namespace Semijoin

/-- Why a text gives no fraction. -/
inductive FractionFault where
  | form (text : Text)
  | manyDigits (count : Nat)
  | zeroDenominator
deriving DecidableEq

def FractionFault.message : FractionFault → Text
  | form text => s!"Invalid literal for Fraction: {quoteText text}"
  | manyDigits count => Digit.tooManyMessage count
  | zeroDenominator => "division by zero"

/-- A fraction as it is written. The numbers are digits in base 10; the exponent has a sign. -/
structure WrittenFraction where
  negative : Bool
  whole : List Char
  denominator : List Char := []
  decimals : List Char := []
  exponent : Option (Bool × List Char) := none

namespace WrittenFraction

open NumberText

/-- Puts in the exponent that a numeral ends with. -/
def withExponent? (f : WrittenFraction) : List Char → Option WrittenFraction
  | [] => some f
  | e :: cs =>
    let (negative, cs) := takeSign cs
    match takeDigits Char.isDigit false cs with
    | (d :: ds, []) =>
      if e = 'e' ∨ e = 'E' then some { f with exponent := some (negative, d :: ds) } else none
    | _ => none

/-- Reads a fraction without blanks, in plain digits. -/
def ofChars? (cs : List Char) : Option WrittenFraction :=
  let (negative, cs) := takeSign cs
  let (whole, rest) := takeDigits Char.isDigit false cs
  let f : WrittenFraction := { negative, whole }
  match whole, rest with
  | _ :: _, '/' :: rest =>
    match takeDigits Char.isDigit false rest with
    | (d :: ds, []) => some { f with denominator := d :: ds }
    | _ => none
  | _ :: _, '.' :: rest =>
    let (decimals, rest) := takeDigits Char.isDigit false rest
    { f with decimals }.withExponent? rest
  | [], '.' :: rest =>
    match takeDigits Char.isDigit false rest with
    | ([], _) => none
    | (decimals, rest) => { f with decimals }.withExponent? rest
  | _ :: _, rest => f.withExponent? rest
  | [], _ => none

/-- The number that digits spell; their number is bounded. -/
def number (ds : List Char) : Except FractionFault Nat :=
  if Digit.maxCount < ds.length then .error (.manyDigits ds.length)
  else .ok (ds.foldl (fun n c => 10 * n + (c.toNat - '0'.toNat)) 0)

/-- The value of a fraction. -/
def value (f : WrittenFraction) : Except FractionFault Rat := do
  let whole ← number f.whole
  let magnitude : Rat ←
    if f.denominator ≠ [] then do
      let denominator ← number f.denominator
      if denominator = 0 then throw .zeroDenominator
      pure (mkRat whole denominator)
    else do
      let scale := Nat.pow 10 f.decimals.length
      let m := mkRat (whole * scale + (← number f.decimals)) scale
      match f.exponent with
      | none => pure m
      | some (negative, ds) => do
        let scale : Nat := Nat.pow 10 (← number ds)
        pure (if negative then m / scale else m * scale)
  return if f.negative then -magnitude else magnitude

end WrittenFraction

/-- Reads a fraction. -/
def fractionOfText (t : Text) : Except FractionFault Rat :=
  let cs := (t.toChars.map Digit.plain).dropWhile Digit.isSpaceOrSeparator
  match WrittenFraction.ofChars? (cs.reverse.dropWhile Digit.isSpaceOrSeparator).reverse with
  | some f => f.value
  | none => .error (.form t)

end Semijoin
