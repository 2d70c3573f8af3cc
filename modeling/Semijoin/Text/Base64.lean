/-!
# Base 64

Bytes as text of 64 letters, four letters for three bytes. Letters outside the alphabet are passed
over; an equals sign fills up the last group and ends the text.
-/

namespace Semijoin.Base64

/-- The six bits that a letter stands for. -/
def value? (c : Char) : Option Nat :=
  if 'A' ≤ c ∧ c ≤ 'Z' then some (c.toNat - 'A'.toNat)
  else if 'a' ≤ c ∧ c ≤ 'z' then some (c.toNat - 'a'.toNat + 26)
  else if c.isDigit then some (c.toNat - '0'.toNat + 52)
  else if c = '+' then some 62
  else if c = '/' then some 63
  else none

/-- The bytes of a text from `place` letters into a group on. `bits` are those of the previous
letter that belong to the next byte, and `fill` is the number of equals signs since the last letter.
A group must be complete at the end. -/
def decodeFrom? (place bits fill : Nat) : List Char → Option (List UInt8)
  | [] => if place = 0 then some [] else none
  | '=' :: cs =>
    if place < 2 then decodeFrom? place bits fill cs
    else if 4 ≤ place + fill + 1 then some []
    else decodeFrom? place bits (fill + 1) cs
  | c :: cs =>
    match value? c, place with
    | none, _ => decodeFrom? place bits fill cs
    | some v, 0 => decodeFrom? 1 v 0 cs
    | some v, 1 => (decodeFrom? 2 (v % 16) 0 cs).map (UInt8.ofNat (4 * bits + v / 16) :: ·)
    | some v, 2 => (decodeFrom? 3 (v % 4) 0 cs).map (UInt8.ofNat (16 * bits + v / 4) :: ·)
    | some v, _ => (decodeFrom? 0 0 0 cs).map (UInt8.ofNat (64 * bits + v) :: ·)

/-- The bytes of a text. -/
def decode? (cs : List Char) : Option (List UInt8) := decodeFrom? 0 0 0 cs

end Semijoin.Base64
