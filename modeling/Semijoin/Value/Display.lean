import Semijoin.Text.Digit
import Semijoin.Text.Json
import Semijoin.Value.Basic

/-!
# Values in messages

A value has two texts. `Value.quoted` shows what kind of value it is, with quotes around text;
`Value.plain` is the same except that text, dates and numbers stand for themselves. Lists and maps
always show their elements quoted. `Value.json?` is the value in a JSON document.
-/

namespace Semijoin.Value

/-- A fraction in lowest terms; a whole one is written without a denominator. -/
def fractionText (q : Rat) : String :=
  if q.den = 1 then toString q.num else s!"{q.num}/{q.den}"

mutual

/-- The text that shows what kind of value this is. -/
def quoted : Value → String
  | null => "None"
  | bool b => if b then "True" else "False"
  | int n => toString n
  | float x => NumeralLayout.plain.text x
  | decimal d => "Decimal('" ++ d.text ++ "')"
  | fraction q => s!"Fraction({q.num}, {q.den})"
  | date d => d.sourceText
  | datetime t => t.sourceText
  | str s => quoteText s
  | bytes bs => quoteBytes bs
  | list xs => "[" ++ ", ".intercalate (quotedList xs) ++ "]"
  | tuple xs =>
    "(" ++ ", ".intercalate (quotedList xs) ++ (if xs.length = 1 then ",)" else ")")
  | set xs =>
    if xs.isEmpty then "set()" else "\x7b" ++ ", ".intercalate (quotedList xs) ++ "\x7d"
  | map entries => "\x7b" ++ ", ".intercalate (quotedEntries entries) ++ "\x7d"
  | again isMap => if isMap then "\x7b...\x7d" else "[...]"

def quotedList : List Value → List String
  | [] => []
  | x :: xs => quoted x :: quotedList xs

def quotedEntries : List (Value × Value) → List String
  | [] => []
  | (key, value) :: entries => (quoted key ++ ": " ++ quoted value) :: quotedEntries entries

end

/-- The text of the value itself. -/
def plain : Value → Text
  | str s => s
  | decimal d => d.text
  | fraction q => fractionText q
  | date d => d.isoText
  | datetime t => t.isoText " "
  | x => x.quoted

/-- Whether an integer is short enough to be written. -/
def isShort (n : Int) : Bool := n.natAbs < Nat.pow 10 Digit.maxCount

/-- What is said about an integer that is too long to be written. -/
def tooLongMessage : String :=
  s!"Exceeds the limit ({Digit.maxCount} digits) for integer string conversion; " ++
    "use sys.set_int_max_str_digits() to increase the limit"

mutual

/-- Whether no integer inside a value is too long to be written. -/
def isWritable : Value → Bool
  | int n => isShort n
  | fraction q => isShort q.num && isShort q.den
  | list xs | tuple xs | set xs => areWritable xs
  | map entries => areWritableEntries entries
  | _ => true

def areWritable : List Value → Bool
  | [] => true
  | x :: xs => isWritable x && areWritable xs

def areWritableEntries : List (Value × Value) → Bool
  | [] => true
  | (key, value) :: entries => isWritable key && isWritable value && areWritableEntries entries

end

/-- A key of a JSON object; only null, truth values, numbers and text can be one. -/
def jsonKey? : Value → Option Text
  | null => some "null"
  | bool b => some (if b then "true" else "false")
  | int n => some (toString n)
  | float x => some (NumeralLayout.json.text x)
  | str s => some s
  | _ => none

mutual

/-- The value on one line of JSON. What JSON cannot hold is replaced by its plain text; there is no
document if a map has a key that cannot be one. -/
def json? : Value → Option String
  | null => some "null"
  | bool b => some (if b then "true" else "false")
  | int n => some (toString n)
  | float x => some (NumeralLayout.json.text x)
  | str s => some (Json.quote s)
  | list xs | tuple xs => (jsonList? xs).map Json.array
  | map entries => (jsonEntries? entries).map Json.object
  | x => some (Json.quote x.plain)

def jsonList? : List Value → Option (List String)
  | [] => some []
  | x :: xs => do return (← json? x) :: (← jsonList? xs)

def jsonEntries? : List (Value × Value) → Option (List (Text × String))
  | [] => some []
  | (key, value) :: entries => do
    return (← jsonKey? key, ← json? value) :: (← jsonEntries? entries)

end

end Semijoin.Value
