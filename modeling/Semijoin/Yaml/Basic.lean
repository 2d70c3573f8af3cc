import Semijoin.Calendar
import Semijoin.Numeric.Reading

/-!
# Characters of a YAML document

The classes of characters that the structure of a document hangs on, and the faults that reading a
document can end in.
-/

namespace Semijoin.Yaml

/-- Why a document cannot be read. Apart from faults of its form there are scalars that do not spell
a value of their kind. -/
inductive Fault where
  | malformed
  | tooDeep
  | codePoint
  | hugeCodePoint
  | number (cause : NumberFault)
  | noNumeral
  | hugeNumber
  | notTruth (text : Text)
  | notTime
  | timeOfMapping
  | calendar (cause : CalendarFault)
deriving DecidableEq

def Fault.message : Fault → Text
  | malformed => "malformed document"
  | tooDeep => "too many levels"
  | codePoint => "chr() arg not in range(0x110000)"
  | hugeCodePoint => "signed integer is greater than maximum"
  | number cause => cause.message
  | noNumeral => "string index out of range"
  | hugeNumber => "int too large to convert to float"
  | notTruth text => text
  | notTime => "not a time"
  | timeOfMapping => "a mapping as a time"
  | calendar cause => cause.message

/-- Whether a character ends a line. -/
def isBreak (c : Char) : Bool := c = '\n' || c = '\x85' || c = '\u2028' || c = '\u2029'

def isBlank (c : Char) : Bool := c = ' ' || c = '\t'

/-- The characters that names are made of. -/
def isNameChar (c : Char) : Bool := c.isAlphanum || c = '-' || c = '_'

/-- A line break as it counts in text. -/
def breakText (c : Char) : Char := if c = '\x85' then '\n' else c

/-- Whether a text is at its end, a blank or a line break. -/
def atGap : List Char → Bool
  | [] => true
  | c :: _ => isBlank c || isBreak c

/-- Whether a line starts with one of the markers between documents. -/
def atMarker : List Char → Bool
  | '-' :: '-' :: '-' :: cs | '.' :: '.' :: '.' :: cs => atGap cs
  | _ => false

/-- A text with the same break at the end of each line. -/
def unifyBreaks : List Char → List Char
  | [] => []
  | '\r' :: '\n' :: cs => '\n' :: unifyBreaks cs
  | '\r' :: cs => '\n' :: unifyBreaks cs
  | c :: cs => c :: unifyBreaks cs

/-- Whether a document may hold a character: tab, line breaks and what can be seen. -/
def isAllowed (c : Char) : Bool :=
  let code := c.toNat
  c = '\t' || c = '\n' || c = '\r' || (0x20 ≤ code && code ≤ 0x7e) || code = 0x85 ||
    (0xa0 ≤ code && code ≠ 0xfffe && code ≠ 0xffff)

end Semijoin.Yaml
