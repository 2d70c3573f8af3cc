import Semijoin.Value.Basic

/-!
# The order of a set

A set of numbers is listed by slots. The number of slots is a power of two, more than twice that of
the elements when these are five or more. Each element in turn takes the first free slot on a way
that its residue modulo the prime `2 ^ 61 - 1` gives. Other sets are listed as they were entered.
-/

namespace Semijoin.Slots

/-- The prime modulo which numbers are taken. -/
def modulus : Nat := Nat.pow 2 61 - 1

/-- The absolute value of a number modulo the prime, if the denominator is a power of two. The
sixty-first power of two is one there, so division by a power of two is multiplication by one. -/
def residue (q : Rat) : Nat :=
  q.num.natAbs * Nat.pow 2 (61 - q.den.log2 % 61) % modulus

/-- An integer as a word of 64 bits. Minus one is left out: minus two stands for it too. -/
def wordOf (n : Int) : Nat := ((if n = -1 then -2 else n) % Int.ofNat (Nat.pow 2 64)).toNat

/-- The word that says where a number goes. -/
def word? (v : Value) : Option Nat :=
  match v.amount? with
  | some (.exact q) => some (wordOf (if q.num < 0 then -residue q else residue q))
  | some (.infinite negative) => some (wordOf (if negative then -314159 else 314159))
  | _ => none

/-- The number of slots for a number of elements. -/
def size (count : Nat) : Nat := if count < 5 then 8 else Nat.pow 2 ((2 * count).log2 + 1)

variable {α : Type}

/-- The slots that are looked at together: ten in a row, near the end of the table only one. -/
def row (size slot : Nat) : List Nat :=
  if slot + 9 < size then List.range' slot 10 else [slot]

/-- The first free slot on the way that a word gives. Each row but the first is found from the slot
before and from what is left of the word after its last five bits have been dropped. -/
def free? (slots : Array (Option α)) : (fuel : Nat) → (slot word : Nat) → Option Nat
  | 0, _, _ => none
  | fuel + 1, slot, word =>
    match (row slots.size slot).find? fun s => (slots[s]?.getD none).isNone with
    | some s => some s
    | none => free? slots fuel ((5 * slot + 1 + word / 32) % slots.size) (word / 32)

/-- Enters an element. Once nothing is left of the word, after 13 rows, all slots are looked at. -/
def enter (slots : Array (Option α)) (word : Nat) (x : α) : Array (Option α) :=
  match free? slots (slots.size + 13) (word % slots.size) word with
  | some s => slots.setIfInBounds s (some x)
  | none => slots

/-- Elements in the order of their slots. -/
def listed (value : α → Value) (xs : List α) : List α :=
  match xs.mapM fun x => (word? (value x)).map (·, x) with
  | some entries =>
    let slots := Array.replicate (size xs.length) (none : Option α)
    (entries.foldl (fun slots (word, x) => enter slots word x) slots).toList.filterMap id
  | none => xs

end Semijoin.Slots
