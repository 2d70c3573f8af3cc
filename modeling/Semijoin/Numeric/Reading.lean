import Semijoin.Numeric.Shortest
import Semijoin.Text.Digit
import Semijoin.Text.Hexadecimal
import Semijoin.Text.Quoted

/-!
# Reading numbers

Reading an integer in a base, and a double in base 10. Blanks may stand around a number, its digits
can be those of any script, and a single underscore may stand between two of them.
-/

namespace Semijoin

/-- Why a text gives no number. -/
inductive NumberFault where
  | manyDigits (count : Nat)
  | notInteger (base : Nat) (text : Text)
  | notDouble (text : Text)
deriving DecidableEq

/-- What is said about a text that is no number; of one that is no integer, 200 characters are
shown. -/
def NumberFault.message : NumberFault → Text
  | manyDigits count => Digit.tooManyMessage count
  | notInteger base text =>
    let shown := String.ofList ((quoteText text).toList.take 200)
    s!"invalid literal for int() with base {base}: {shown}"
  | notDouble text => s!"could not convert string to float: {quoteText text}"

namespace NumberText

/-- Takes digits. A single underscore can stand between two of them. -/
def takeDigits (isDigit : Char → Bool) (afterDigit : Bool) : List Char → List Char × List Char
  | [] => ([], [])
  | '_' :: c :: cs =>
    if afterDigit && isDigit c then
      let (ds, rest) := takeDigits isDigit true cs
      (c :: ds, rest)
    else ([], '_' :: c :: cs)
  | c :: cs =>
    if isDigit c then
      let (ds, rest) := takeDigits isDigit true cs
      (c :: ds, rest)
    else ([], c :: cs)

/-- Drops underscores, each of which has to stand between two digits. -/
def dropUnderscores? (afterDigit : Bool) : List Char → Option (List Char)
  | [] => some []
  | ['_'] => none
  | '_' :: c :: cs =>
    if afterDigit && c.isDigit then (c :: ·) <$> dropUnderscores? true cs else none
  | c :: cs => (c :: ·) <$> dropUnderscores? c.isDigit cs

/-- Splits a sign off. -/
def takeSign : List Char → Bool × List Char
  | '-' :: cs => (true, cs)
  | '+' :: cs => (false, cs)
  | cs => (false, cs)

/-- The value of a digit in bases up to 16. -/
def digit? (base : Nat) (c : Char) : Option Nat := (Hexadecimal.digit? c).filter (· < base)

/-- The letter that marks a base after a zero. -/
def baseLetter? (base : Nat) : Option Char :=
  if base = 2 then some 'b' else if base = 8 then some 'o' else if base = 16 then some 'x' else none

/-- A numeral without the mark of its base, and whether there was one. -/
def dropMark (base : Nat) (cs : List Char) : Bool × List Char :=
  match cs with
  | '0' :: c :: rest => if baseLetter? base = some c.toLower then (true, rest) else (false, cs)
  | _ => (false, cs)

end NumberText

open NumberText

/-- Reads an integer in a base, with a sign and a mark of the base. The number of digits is bounded
unless the base is a power of two; an underscore in the wrong place is found before that. -/
def integerOfText (base : Nat) (t : Text) : Except NumberFault Int :=
  let (negative, cs) := takeSign ((t.toChars.map Digit.plain).dropWhile Digit.isSpace)
  let (marked, cs) := dropMark base cs
  let (ds, rest) := takeDigits (fun c => (digit? base c).isSome) marked cs
  if rest.head? = some '_' then .error (.notInteger base t)
  else if base = 10 ∧ Digit.maxCount < ds.length then .error (.manyDigits ds.length)
  else if ds.isEmpty ∨ !(rest.dropWhile Digit.isSpace).isEmpty then .error (.notInteger base t)
  else
    let n := (ds.filterMap (digit? base)).foldl (fun n d => base * n + d) 0
    .ok (if negative then -n else n)

/-- Reads a double; the words for infinity and for no number can be in any case. -/
def doubleOfText (t : Text) : Except NumberFault Binary64 :=
  let cs := (t.toChars.map Digit.plain).dropWhile Digit.isSpace
  let x? := do
    let cs ← dropUnderscores? false (cs.reverse.dropWhile Digit.isSpace).reverse
    let (negative, magnitude) := takeSign cs
    let word := String.ofList (magnitude.map Char.toLower)
    let x ←
      if word = "inf" ∨ word = "infinity" then some Binary64.posInf
      else if word = "nan" then some .nan
      else (Numeral.ofChars? magnitude).map Numeral.toBinary64
    return if negative then x.neg else x
  match x? with
  | some x => .ok x
  | none => .error (.notDouble t)

end Semijoin
