import Semijoin.Numeric.Shortest
import Semijoin.Text.Basic
import Semijoin.Text.Digit

/-!
# Decimals

A decimal keeps the digits that it is written with, so `1.10` and `1.1` are different decimals of
one value. Besides the finite ones there are two infinities and those that are no number. These can
be signaling, and can carry a number of their own.
-/

namespace Semijoin

inductive Decimal where
  | finite (negative : Bool) (magnitude : Numeral)
  | infinite (negative : Bool)
  | nan (negative signaling : Bool) (payload : Nat)
deriving DecidableEq, Inhabited

/-- Why a text is no decimal: it is not spelled like one, or its exponent is too large or too small.
-/
inductive DecimalFault where
  | form
  | range
deriving DecidableEq

/-- The text of a numeral. It is positional unless its last digit stands in front of the point or
its first one more than six places behind it. -/
def Numeral.exactText (d : Numeral) : String :=
  let digits := Nat.repr d.digits
  let first := d.exponent + digits.length - 1
  if d.exponent ≤ 0 ∧ -7 < first then
    let places := d.exponent.natAbs
    let digits := "".pushn '0' (places + 1 - digits.length) ++ digits
    let whole := (digits.take (digits.length - places)).toString
    if places = 0 then whole else whole ++ "." ++ (digits.drop (digits.length - places)).toString
  else
    let fraction := if digits.length ≤ 1 then "" else "." ++ (digits.drop 1).toString
    (digits.take 1).toString ++ fraction ++ "E" ++ (if first < 0 then "-" else "+") ++
      Nat.repr first.natAbs

namespace Decimal

def signText (negative : Bool) : String := if negative then "-" else ""

def text : Decimal → String
  | finite negative d => signText negative ++ d.exactText
  | infinite negative => signText negative ++ "Infinity"
  | nan negative signaling payload =>
    signText negative ++ (if signaling then "sNaN" else "NaN") ++
      (if payload = 0 then "" else Nat.repr payload)

/-- The greatest exponent that the first digit may have. -/
def maxExponent : Int := 999999999999999999

/-- The least exponent that the last digit may have. -/
def minExponent : Int := -1999999999999999997

/-- Splits a word in small letters off, in any case. -/
def dropWord? (word : List Char) (cs : List Char) : Option (List Char) :=
  if (cs.take word.length).map Char.toLower = word then some (cs.drop word.length) else none

/-- Reads what is no number: the word, and a number behind it. -/
def nan? (negative : Bool) (cs : List Char) : Option Decimal :=
  let (signaling, rest) := match dropWord? ['s'] cs with
    | some rest => (true, rest)
    | none => (false, cs)
  (dropWord? "nan".toList rest).bind fun rest =>
    match Numeral.takeDigits rest with
    | (payload, _, []) => some (nan negative signaling payload)
    | _ => none

/-- Reads a decimal in any script, with blanks around it. Underscores in it are ignored. -/
def ofText (t : Text) : Except DecimalFault Decimal :=
  let cs := (t.toChars.map Digit.plain).dropWhile Digit.isSpaceOrSeparator
  let cs := (cs.reverse.dropWhile Digit.isSpaceOrSeparator).reverse.filter (· ≠ '_')
  let (negative, cs) := match cs with
    | '-' :: cs => (true, cs)
    | '+' :: cs => (false, cs)
    | cs => (false, cs)
  match Numeral.ofChars? cs with
  | some d =>
    let first := d.exponent + (Nat.repr d.digits).length - 1
    if maxExponent < first ∨ d.exponent < minExponent then .error .range
    else .ok (finite negative d)
  | none =>
    if [dropWord? "inf".toList cs, dropWord? "infinity".toList cs].contains (some []) then
      .ok (infinite negative)
    else
      match nan? negative cs with
      | some d => .ok d
      | none => .error .form

/-- Whether any use of the decimal as a number is a fault. -/
def isSignaling : Decimal → Bool
  | nan _ signaling _ => signaling
  | _ => false

end Decimal

end Semijoin
