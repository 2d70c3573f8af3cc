import Semijoin.Calendar
import Semijoin.Numeric.Decimal
import Semijoin.Text.Basic

/-!
# Values

The dynamic values that literals hold, hints are set to, configuration documents consist of and log
records carry. Integers, doubles, decimals and fractions are kept apart, because messages show the
difference; `Value.same?` compares them as the numbers they are, and has no answer where one of them
is a signaling decimal.
-/

namespace Semijoin

/-- A value. A map keeps its entries in order and has no key twice, and a set no element twice.
`again` stands where a list or map would contain itself. -/
inductive Value where
  | null
  | bool (b : Bool)
  | int (n : Int)
  | float (x : Binary64)
  | decimal (d : Decimal)
  | fraction (q : Rat)
  | date (d : Date)
  | datetime (t : DateTime)
  | str (s : Text)
  | bytes (bs : List UInt8)
  | list (xs : List Value)
  | tuple (xs : List Value)
  | set (xs : List Value)
  | map (entries : List (Value × Value))
  | again (isMap : Bool)
deriving Inhabited

/-- What a number comes to. A decimal numeral stays as it is, because its value can have more digits
than can be written out. -/
inductive Amount where
  | nan
  | infinite (negative : Bool)
  | exact (q : Rat)
  | numeral (negative : Bool) (d : Numeral)

namespace Amount

/-- What a decimal comes to: a numeral, an infinity or no number. -/
def ofDecimal : Decimal → Amount
  | .finite negative d => numeral negative d
  | .infinite negative => infinite negative
  | .nan .. => nan

/-- The exact value of a finite number. -/
def toRat? : Amount → Option Rat
  | exact q => some q
  | numeral negative d => some (if negative then -d.value else d.value)
  | _ => none

/-- Whether two numbers are equal. Nothing equals what is no number. -/
def same : Amount → Amount → Bool
  | infinite a, infinite b => a = b
  | exact p, exact q => p = q
  | numeral a d, numeral b e => d.normal = e.normal && (a = b || d.digits = 0)
  | numeral a d, exact q | exact q, numeral a d =>
    if a then d.isValue (-q) else d.isValue q
  | _, _ => false

def isZero : Amount → Bool
  | exact q => q = 0
  | numeral _ d => d.digits = 0
  | _ => false

end Amount

namespace Value

/-- What a value comes to as a number. Truth values count as one and zero. -/
def amount? : Value → Option Amount
  | bool b => some (.exact (if b then 1 else 0))
  | int n => some (.exact n)
  | float x =>
    match x.toRat? with
    | some q => some (.exact q)
    | none => some (if x.isNaN then .nan else .infinite x.isNegative)
  | decimal d => some (.ofDecimal d)
  | fraction q => some (.exact q)
  | _ => none

/-- Equality of two values without parts: numbers by value, everything else within its own kind. -/
def sameScalar (x y : Value) : Bool :=
  match x.amount?, y.amount? with
  | some p, some q => p.same q
  | none, none =>
    match x, y with
    | null, null => true
    | date x, date y => x = y
    | datetime x, datetime y => x.same y
    | str x, str y => x = y
    | bytes x, bytes y => x = y
    | _, _ => false
  | _, _ => false

/-- Whether two values are numbers, one of them a signaling decimal. -/
def isSignaled (x y : Value) : Bool :=
  let signals : Value → Bool
    | decimal d => d.isSignaling
    | _ => false
  x.amount?.isSome && y.amount?.isSome && (signals x || signals y)

mutual

/-- Equality of values. Lists are compared in order up to the first difference, maps and sets
without regard to order. There is no answer if that leads to a signaling decimal and a number. -/
def same? : Value → Value → Option Bool
  | list xs, list ys => if xs.length = ys.length then sameList? xs ys else some false
  | tuple xs, tuple ys => sameList? xs ys
  | set xs, set ys => some (xs.length = ys.length && xs.all fun x => ys.any (sameScalar x))
  | map ps, map qs => if ps.length = qs.length then sameEntries? ps qs else some false
  | x, y => if isSignaled x y then none else some (sameScalar x y)

def sameList? : List Value → List Value → Option Bool
  | [], [] => some true
  | x :: xs, y :: ys => do if ← same? x y then sameList? xs ys else return false
  | _, _ => some false

/-- Whether the entries occur among the others. Keys have no parts. -/
def sameEntries? : List (Value × Value) → List (Value × Value) → Option Bool
  | [], _ => some true
  | (key, value) :: ps, qs =>
    match qs.find? fun (other, _) => sameScalar key other with
    | none => some false
    | some (_, other) => do if ← same? value other then sameEntries? ps qs else return false

end

/-- Whether a value is a key that a map may have. -/
def isKey : Value → Bool
  | list _ | tuple _ | set _ | map _ | again _ => false
  | decimal d => !d.isSignaling
  | _ => true

/-- Enters a value under a key. A key that is there keeps its place and takes the new value. -/
def putEntry (entries : List (Value × Value)) (key value : Value) : List (Value × Value) :=
  if entries.any (·.1.sameScalar key) then
    entries.map fun entry => if entry.1.sameScalar key then (entry.1, value) else entry
  else entries ++ [(key, value)]

/-- A map from entries that may repeat keys. -/
def mapOfEntries (entries : List (Value × Value)) : Value :=
  map (entries.foldl (fun done (key, value) => putEntry done key value) [])

/-- Whether a value counts as empty: null, false, zero or without content. -/
def isEmpty : Value → Bool
  | null => true
  | str s => s.isEmpty
  | bytes bs => bs.isEmpty
  | list xs | tuple xs | set xs => xs.isEmpty
  | map entries => entries.isEmpty
  | x => x.amount?.any Amount.isZero

end Value

end Semijoin
