import Semijoin.Text.Quoted

/-!
# JSON text

Strings, arrays and objects as JSON text in ASCII: whatever is not printable ASCII is escaped, by
its short form if it has one and otherwise by its UTF-16 units. Documents are written either on one
line or indented by two spaces.
-/

namespace Semijoin.Json

/-- The escape of one UTF-16 unit. -/
def unitEscape (unit : Nat) : List Char := '\\' :: 'u' :: hexDigits 4 unit

/-- A character by its UTF-16 units. -/
def unitEscapes (code : Nat) : List Char :=
  if code < 0x10000 then unitEscape code
  else
    let rest := code - 0x10000
    unitEscape (0xd800 + rest / 0x400) ++ unitEscape (0xdc00 + rest % 0x400)

/-- One character of a JSON string. -/
def escape (c : Char) : List Char :=
  if c = '"' ∨ c = '\\' then ['\\', c]
  else if c = '\n' then ['\\', 'n']
  else if c = '\r' then ['\\', 'r']
  else if c = '\t' then ['\\', 't']
  else if c.toNat = 0x08 then ['\\', 'b']
  else if c.toNat = 0x0c then ['\\', 'f']
  else if 0x20 ≤ c.toNat ∧ c.toNat < 0x7f then [c]
  else unitEscapes c.toNat

/-- One code point of a JSON string. -/
def escapePoint : CodePoint → List Char
  | .char c => escape c
  | p => unitEscape p.code

/-- A JSON string. -/
def quote (t : Text) : String := String.ofList ('"' :: t.points.flatMap escapePoint ++ ['"'])

/-- An array on one line, from the text of its elements. -/
def array (elements : List String) : String := "[" ++ ", ".intercalate elements ++ "]"

/-- An object on one line, from its keys and the text of its values. -/
def object (entries : List (Text × String)) : String :=
  "\x7b" ++ ", ".intercalate (entries.map fun (key, value) => quote key ++ ": " ++ value) ++ "\x7d"

/-- A line break followed by the indentation of a nesting depth. -/
def newline (depth : Nat) : String := "\n" ++ "".pushn ' ' (2 * depth)

/-- An indented array at a nesting depth. -/
def indentedArray (depth : Nat) (elements : List String) : String :=
  if elements.isEmpty then "[]"
  else
    "[" ++ ",".intercalate (elements.map (newline (depth + 1) ++ ·)) ++ newline depth ++ "]"

/-- An indented object at a nesting depth. -/
def indentedObject (depth : Nat) (entries : List (Text × String)) : String :=
  if entries.isEmpty then "\x7b\x7d"
  else
    "\x7b" ++ ",".intercalate (entries.map fun (key, value) =>
      newline (depth + 1) ++ quote key ++ ": " ++ value) ++ newline depth ++ "\x7d"

end Semijoin.Json
