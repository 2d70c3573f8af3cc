import Semijoin.Yaml.Basic

/-!
# Tags of nodes

The tag of a node tells what kind of value it is. A plain scalar of YAML 1.1 has the tag of what it
is spelled like: a truth value, a number, null, a date or a time, a sign for merged entries, for a
default or for something else, and text otherwise. Numbers can be written in base 60 with colons
between the digits.
-/

namespace Semijoin.Yaml

inductive Tag where
  | null
  | bool
  | int
  | float
  | binary
  | timestamp
  | omap
  | pairs
  | set
  | str
  | seq
  | map
  | merge
  | value
  | unknown
deriving DecidableEq, Inhabited

namespace Tag

/-- What the names of the common tags start with. -/
def commonStart : String := "tag:yaml.org,2002:"

/-- The common tags by the ends of their names. -/
def common : List (String × Tag) :=
  [("null", null), ("bool", bool), ("int", int), ("float", float), ("binary", binary),
    ("timestamp", timestamp), ("omap", omap), ("pairs", pairs), ("set", set), ("str", str),
    ("seq", seq), ("map", map), ("merge", merge), ("value", value)]

/-- The tag of a full name. -/
def ofName (name : String) : Tag :=
  ((common.find? fun (stem, _) => commonStart ++ stem = name).map (·.2)).getD unknown

end Tag

def trueWords : List String :=
  ["yes", "Yes", "YES", "true", "True", "TRUE", "on", "On", "ON"]

def falseWords : List String :=
  ["no", "No", "NO", "false", "False", "FALSE", "off", "Off", "OFF"]

def nullWords : List String := ["", "~", "null", "Null", "NULL"]

open NumberText (takeSign)

/-- Whether a text is a digit followed by digits and underscores. -/
def isNumerals : List Char → Bool
  | [] => false
  | c :: cs => c.isDigit && cs.all fun c => c.isDigit || c = '_'

/-- Whether a text is a digit of base 60 in decimal. -/
def isSixtieth : List Char → Bool
  | [a] => a.isDigit
  | [a, b] => '0' ≤ a && a ≤ '5' && b.isDigit
  | _ => false

/-- The parts between colons. -/
def splitColons : List Char → List (List Char)
  | [] => [[]]
  | c :: cs =>
    match splitColons cs with
    | [] => [[c]]
    | part :: parts => if c = ':' then [] :: part :: parts else (c :: part) :: parts

/-- Whether a text is spelled like an integer. A leading zero marks octal digits. -/
def isInteger (cs : List Char) : Bool :=
  let isNonempty (isDigit : Char → Bool) (ds : List Char) : Bool :=
    !ds.isEmpty && ds.all fun c => c = '_' || isDigit c
  match (takeSign cs).2 with
  | [] => false
  | '0' :: 'b' :: ds => isNonempty (fun c => c = '0' || c = '1') ds
  | '0' :: 'x' :: ds => isNonempty (fun c => (Hexadecimal.digit? c).isSome) ds
  | '0' :: ds => ds.all fun c => c = '_' || ('0' ≤ c && c ≤ '7')
  | cs =>
    match splitColons cs with
    | whole :: parts => isNumerals whole && parts.all isSixtieth
    | [] => false

/-- Whether a text is an exponent with its sign, or nothing. -/
def isExponent : List Char → Bool
  | [] => true
  | e :: sign :: ds =>
    (e = 'e' || e = 'E') && (sign = '-' || sign = '+') && !ds.isEmpty && ds.all Char.isDigit
  | _ => false

/-- Whether a text without sign is decimal digits with a point, of base 10 or 60. A text that begins
with the point has a digit after it, and no sign in front. -/
def isPointed (signed : Bool) (cs : List Char) : Bool :=
  let (front, exponent) := cs.span fun c => c ≠ 'e' && c ≠ 'E'
  let (whole, fraction) := front.span (· ≠ '.')
  match fraction with
  | '.' :: fraction =>
    let isFraction := fraction.all fun c => c.isDigit || c = '_'
    match splitColons whole with
    | [[]] => !signed && isNumerals fraction && isExponent exponent
    | [whole] => isNumerals whole && isFraction && isExponent exponent
    | first :: rest =>
      isNumerals first && rest.all isSixtieth && isFraction && exponent.isEmpty
    | [] => false
  | _ => false

/-- Whether a text is spelled like a double. -/
def isDouble (cs : List Char) : Bool :=
  let rest := (takeSign cs).2
  let signed := rest.length < cs.length
  [".inf", ".Inf", ".INF"].contains (String.ofList rest) ||
    (!signed && [".nan", ".NaN", ".NAN"].contains (String.ofList rest)) || isPointed signed rest

/-- A date and time as they are written: the parts of the date, those of the time with its
microseconds, and the distance from universal time in seconds. -/
structure WrittenTime where
  date : Nat × Nat × Nat
  time : Option (Nat × Nat × Nat × Nat) := none
  offset : Option Int := none

namespace WrittenTime

def digitsValue (ds : List Char) : Nat := ds.foldl (fun n c => 10 * n + (c.toNat - '0'.toNat)) 0

/-- Takes from `least` to `most` digits. -/
def number? (least most : Nat) (cs : List Char) : Option (Nat × List Char) :=
  let ds := (cs.take most).takeWhile Char.isDigit
  if least ≤ ds.length then some (digitsValue ds, cs.drop ds.length) else none

/-- Takes a character. -/
def take? (c : Char) : List Char → Option (List Char)
  | [] => none
  | d :: cs => if d = c then some cs else none

/-- The distance from universal time in seconds that a text ends with, if it gives one. -/
def offset? (cs : List Char) : Option (Option Int) :=
  match cs, cs.dropWhile isBlank with
  | [], _ => some none
  | _, ['Z'] => some (some 0)
  | _, sign :: rest =>
    if sign ≠ '-' ∧ sign ≠ '+' then none
    else do
      let (hours, rest) ← number? 1 2 rest
      let (minutes, rest) ← match rest with
        | ':' :: rest => number? 2 2 rest
        | rest => some (0, rest)
      if rest ≠ [] then none
      else
        let seconds : Int := hours * 3600 + minutes * 60
        return some (if sign = '-' then -seconds else seconds)
  | _, [] => none

/-- The gap between a date and a time, and the rest. -/
def takeGap? : List Char → Option (List Char)
  | 'T' :: cs | 't' :: cs => some cs
  | c :: cs => if isBlank c then some (cs.dropWhile isBlank) else none
  | [] => none

/-- Takes the fraction of a second, in microseconds. -/
def takeFraction : List Char → Nat × List Char
  | '.' :: cs =>
    let ds := (cs.takeWhile Char.isDigit).take 6
    (digitsValue (ds ++ List.replicate (6 - ds.length) '0'), cs.dropWhile Char.isDigit)
  | cs => (0, cs)

/-- Reads a date, or a date with a time. -/
def ofChars? (cs : List Char) : Option WrittenTime := do
  let (year, cs) ← number? 4 4 cs
  let (month, cs) ← number? 1 2 (← take? '-' cs)
  let (day, cs) ← number? 1 2 (← take? '-' cs)
  if cs = [] then return { date := (year, month, day) }
  let (hour, cs) ← number? 1 2 (← takeGap? cs)
  let (minute, cs) ← number? 2 2 (← take? ':' cs)
  let (second, cs) ← number? 2 2 (← take? ':' cs)
  let (microsecond, cs) := takeFraction cs
  let offset ← offset? cs
  return { date := (year, month, day), time := some (hour, minute, second, microsecond), offset }

end WrittenTime

/-- Whether a text is spelled like a date or time. A date alone has two digits for month and day. -/
def isTime (cs : List Char) : Bool :=
  (WrittenTime.ofChars? cs).any fun t => t.time.isSome || cs.length = 10

/-- A text without the line break at its end. -/
def withoutLastBreak (cs : List Char) : List Char :=
  match cs.reverse with
  | '\n' :: c :: rest => (c :: rest).reverse
  | _ => cs

/-- The signs that start tags, anchors and their uses. -/
def markWords : List String := ["!", "&", "*"]

/-- The tag of a scalar that has none of its own, by what it is spelled like up to a line break at
its end. A sign that could start something else is of no known kind. -/
def Tag.ofSpelling (cs : List Char) : Tag :=
  let cs := withoutLastBreak cs
  let s := String.ofList cs
  if trueWords.contains s || falseWords.contains s then bool
  else if isDouble cs then float
  else if isInteger cs then int
  else if s = "<<" then merge
  else if nullWords.contains s then null
  else if isTime cs then timestamp
  else if s = "=" then value
  else if markWords.contains s then unknown
  else str

end Semijoin.Yaml
