import Semijoin.Text.Base64
import Semijoin.Text.Case
import Semijoin.Value.Basic
import Semijoin.Yaml.Tag

/-!
# Values of scalars

The value of a scalar with a given tag. A scalar can be given a tag that it is not spelled like, so
each reader takes any text. Underscores in numbers are ignored.
-/

namespace Semijoin.Yaml

namespace Scalar

def withoutUnderscores (t : Text) : Text := ⟨t.points.filter (· ≠ .char '_')⟩

/-- Splits a sign off. -/
def takeSign (t : Text) : Bool × Text :=
  match t.points with
  | .char '-' :: ps => (true, ⟨ps⟩)
  | .char '+' :: ps => (false, ⟨ps⟩)
  | _ => (false, t)

/-- Reads an integer in a base. -/
def integerIn (base : Nat) (t : Text) : Except Fault Int :=
  (integerOfText base t).mapError .number

/-- Reads a double in base 10. -/
def decimal (t : Text) : Except Fault Binary64 := (doubleOfText t).mapError .number

/-- Reads an integer without sign: with the mark of its base, in base 8 after a zero, in base 60
with colons, and in base 10. -/
def unsignedInteger (t : Text) : Except Fault Int :=
  match t.points with
  | [] => .error .noNumeral
  | [.char '0'] => .ok 0
  | .char '0' :: .char 'b' :: ps => integerIn 2 ⟨ps⟩
  | .char '0' :: .char 'x' :: ps => integerIn 16 ⟨ps⟩
  | .char '0' :: _ => integerIn 8 t
  | ps =>
    if ps.contains (.char ':') then
      ((t.split ':').mapM (integerIn 10)).map fun digits => digits.foldl (60 * · + ·) 0
    else integerIn 10 t

/-- Reads an integer. -/
def integer (t : Text) : Except Fault Int :=
  let t := withoutUnderscores t
  if t.isEmpty then .error .noNumeral
  else
    let (negative, t) := takeSign t
    (unsignedInteger t).map fun n => if negative then -n else n

/-- The number that digits of base 60 come to, the least first. Every weight is rounded to a double,
which it must fit in, and so are the products and sums. -/
def ofSixtieths (digits : List Binary64) : Except Fault Binary64 :=
  let step (state : Binary64 × Int) (digit : Binary64) : Except Fault (Binary64 × Int) :=
    match Binary64.ofInt? state.2 with
    | none => .error .hugeNumber
    | some weight => .ok (state.1.add (digit.mul weight), 60 * state.2)
  (digits.foldlM step (Binary64.zero, 1)).map (·.1)

/-- Reads a double. -/
def double (t : Text) : Except Fault Binary64 :=
  let t := (withoutUnderscores t).toLower
  if t.isEmpty then .error .noNumeral
  else do
    let (negative, t) := takeSign t
    let x ←
      if t = (".inf" : Text) then pure Binary64.posInf
      else if t = (".nan" : Text) then pure Binary64.nan
      else if t.points.contains (.char ':') then do
        ofSixtieths (← (t.split ':').mapM decimal).reverse
      else decimal t
    return if negative then x.neg else x

/-- Reads a truth value without regard to case. -/
def truth (t : Text) : Except Fault Bool :=
  let t := t.toLower
  if trueWords.contains t.toString then .ok true
  else if falseWords.contains t.toString then .ok false
  else .error (.notTruth t)

/-- Reads bytes in base 64. -/
def binary (t : Text) : Except Fault (List UInt8) :=
  if t.toChars.all (·.toNat < 0x80) then
    match Base64.decode? t.toChars with
    | some bytes => .ok bytes
    | none => .error .malformed
  else .error .malformed

/-- Reads a date or a time. The distance from universal time is checked before the parts. -/
def time (t : Text) : Except Fault Value :=
  match WrittenTime.ofChars? (withoutLastBreak t.toChars) with
  | none => .error .notTime
  | some w =>
    let (year, month, day) := w.date
    let value : Except CalendarFault Value :=
      match w.time with
      | none => (Date.ofParts year month day).map .date
      | some (hour, minute, second, microsecond) => do
        let offset ← w.offset.mapM fun seconds => DateTime.checkOffset (seconds * secondLength)
        .datetime <$> DateTime.ofParts year month day hour minute second microsecond offset
    value.mapError .calendar

/-- The value of a scalar. The signs for merged entries and for a default stand for no value of
their own, and a collection is no scalar. -/
def value (tag : Tag) (t : Text) : Except Fault Value :=
  match tag with
  | .null => .ok .null
  | .bool => .bool <$> truth t
  | .int => .int <$> integer t
  | .float => .float <$> double t
  | .binary => .bytes <$> binary t
  | .timestamp => time t
  | .str => .ok (.str t)
  | _ => .error .malformed

end Scalar

end Semijoin.Yaml
