import Semijoin.Text.Basic

/-!
# Bytes in hexadecimal

Reading bytes that are written as two hexadecimal digits each, with blanks between them.
-/

namespace Semijoin.Hexadecimal

/-- What is at fault: the code point at this position is no digit where one is needed. -/
structure Fault where
  position : Nat
deriving DecidableEq

def Fault.message (f : Fault) : String :=
  s!"non-hexadecimal number found in fromhex() arg at position {f.position}"

/-- The value of a digit. -/
def digit? (c : Char) : Option Nat :=
  if c.isDigit then some (c.toNat - '0'.toNat)
  else if 'a' ≤ c ∧ c ≤ 'f' then some (c.toNat - 'a'.toNat + 10)
  else if 'A' ≤ c ∧ c ≤ 'F' then some (c.toNat - 'A'.toNat + 10)
  else none

def isBlank (c : Char) : Bool := c = ' ' || (9 ≤ c.toNat && c.toNat ≤ 13)

/-- The bytes from a position on. -/
def bytesFrom (position : Nat) : List Char → Except Fault (List UInt8)
  | [] => .ok []
  | [c] => if isBlank c then .ok [] else .error ⟨position + (if (digit? c).isSome then 1 else 0)⟩
  | c :: d :: cs =>
    if isBlank c then bytesFrom (position + 1) (d :: cs)
    else match digit? c, digit? d with
      | none, _ => .error ⟨position⟩
      | some _, none => .error ⟨position + 1⟩
      | some high, some low =>
        (bytesFrom (position + 2) cs).map (UInt8.ofNat (16 * high + low) :: ·)

/-- The bytes of a text. What is not ASCII is found first. -/
def bytes (t : Text) : Except Fault (List UInt8) :=
  match t.points.findIdx? fun p => 0x80 ≤ p.code with
  | some i => .error ⟨i⟩
  | none => bytesFrom 0 t.toChars

end Semijoin.Hexadecimal
