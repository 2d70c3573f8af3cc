import Semijoin.Text.Basic
import Semijoin.Text.Printable

/-!
# Quoted text

Text and byte strings as they are quoted inside messages. Single quotes enclose the text unless it
holds a single quote and no double quote. The quote in use, the backslash and everything
unprintable are escaped, in the shortest of the three hexadecimal forms. A surrogate cannot be
printed.
-/

namespace Semijoin

/-- A hexadecimal digit in lower case. -/
def hexDigit (n : Nat) : Char := (Nat.toDigits 16 (n % 16)).headD '0'

/-- The last `width` hexadecimal digits of a number, in lower case. -/
def hexDigits : (width : Nat) → (n : Nat) → List Char
  | 0, _ => []
  | width + 1, n => hexDigits width (n / 16) ++ [hexDigit n]

namespace Quoted

/-- The quote that encloses a text of these characters. -/
def quoteFor (cs : List Char) : Char :=
  if '\'' ∈ cs ∧ '"' ∉ cs then '"' else '\''

/-- The escape of a code point in the narrowest hexadecimal form. -/
def hexEscape (code : Nat) : List Char :=
  if code < 0x100 then '\\' :: 'x' :: hexDigits 2 code
  else if code < 0x10000 then '\\' :: 'u' :: hexDigits 4 code
  else '\\' :: 'U' :: hexDigits 8 code

/-- One character between quotes. -/
def escape (quote c : Char) : List Char :=
  if c = '\\' ∨ c = quote then ['\\', c]
  else if c = '\n' then ['\\', 'n']
  else if c = '\r' then ['\\', 'r']
  else if c = '\t' then ['\\', 't']
  else if isPrintable c then [c]
  else hexEscape c.toNat

/-- One code point between quotes. -/
def escapePoint (quote : Char) : CodePoint → List Char
  | .char c => escape quote c
  | p => hexEscape p.code

def encode (t : Text) : List Char :=
  let quote := quoteFor t.toChars
  quote :: t.points.flatMap (escapePoint quote) ++ [quote]

end Quoted

/-- A text in quotes. -/
def quoteText (t : Text) : String := String.ofList (Quoted.encode t)

/-- A byte string in quotes: its bytes as the characters they are in ASCII, others in hexadecimal.
-/
def quoteBytes (bytes : List UInt8) : String :=
  let cs := bytes.map fun b => Char.ofNat b.toNat
  let quote := Quoted.quoteFor cs
  let body := cs.flatMap fun c =>
    if c.toNat < 0x80 then Quoted.escape quote c else Quoted.hexEscape c.toNat
  String.ofList ('b' :: quote :: body ++ [quote])

end Semijoin
