import Semijoin.Numeric.Shortest
import Semijoin.Text.Hexadecimal
import Semijoin.Text.Json

/-!
# JSON documents

Documents as values, with a writer and a reader. Text in a document can hold surrogates: two escapes
of UTF-16 units that are a pair are one code point, and a unit without its partner stands for
itself. Besides finite numbers there are the usual words for infinities and for what is no number.
-/

namespace Semijoin.Json

inductive Document where
  | null
  | bool (b : Bool)
  | int (n : Int)
  | float (x : Binary64)
  | str (t : Text)
  | arr (items : List Document)
  | obj (fields : List (Text × Document))
deriving Inhabited

namespace Document

mutual

/-- A document on one line. -/
def text : Document → String
  | null => "null"
  | bool b => if b then "true" else "false"
  | int n => toString n
  | float x => NumeralLayout.json.text x
  | str t => quote t
  | arr items => array (texts items)
  | obj fields => object (fieldTexts fields)

def texts : List Document → List String
  | [] => []
  | d :: ds => d.text :: texts ds

def fieldTexts : List (Text × Document) → List (Text × String)
  | [] => []
  | (name, d) :: fields => (name, d.text) :: fieldTexts fields

end

/-- The field of an object; of several fields of one name the last. -/
def field? (d : Document) (name : Text) : Option Document :=
  match d with
  | obj fields => fields.reverse.lookup name
  | _ => none

end Document

/-! ## Reading -/

def dropBlanks (cs : List Char) : List Char :=
  cs.dropWhile fun c => c = ' ' || c = '\t' || c = '\n' || c = '\r'

/-- Splits a string off behind its opening quote: what is written up to the closing one, after
characters that are given in reverse, and the rest. -/
def splitString? (before : List Char) : List Char → Option (List Char × List Char)
  | [] => none
  | '"' :: cs => some (before.reverse, cs)
  | '\\' :: c :: cs => splitString? (c :: '\\' :: before) cs
  | c :: cs => splitString? (c :: before) cs

/-- The number that hexadecimal digits spell. -/
def unit? (ds : List Char) : Option Nat :=
  (ds.mapM Hexadecimal.digit?).map fun ns => ns.foldl (16 * · + ·) 0

/-- The character that a letter behind a backslash stands for. -/
def shortEscape? (c : Char) : Option Char :=
  [('"', '"'), ('\\', '\\'), ('/', '/'), ('n', '\n'), ('t', '\t'), ('r', '\r'), ('b', '\x08'),
    ('f', '\x0c')].lookup c

/-- The code points of what is written between quotes, after those that are given in reverse. -/
def points? (before : List CodePoint) : List Char → Option (List CodePoint)
  | [] => some before.reverse
  | '\\' :: 'u' :: a :: b :: c :: d :: cs =>
    match (unit? [a, b, c, d]).bind CodePoint.ofNat? with
    | some p => points? (p :: before) cs
    | none => none
  | '\\' :: c :: cs =>
    match shortEscape? c with
    | some c => points? (.char c :: before) cs
    | none => none
  | c :: cs => points? (.char c :: before) cs

/-- Puts a code point in front of others. Before the other half of a pair, a surrogate becomes a
character with it. -/
def prepend (p : CodePoint) (ps : List CodePoint) : List CodePoint :=
  match ps with
  | q :: rest =>
    if 0xd800 ≤ p.code ∧ p.code < 0xdc00 ∧ 0xdc00 ≤ q.code ∧ q.code < 0xe000 then
      .char (Char.ofNat (0x10000 + (p.code - 0xd800) * 0x400 + (q.code - 0xdc00))) :: rest
    else p :: ps
  | [] => [p]

/-- Takes a string behind its opening quote. -/
def takeString? (cs : List Char) : Option (Text × List Char) :=
  (splitString? [] cs).bind fun (written, rest) =>
    (points? [] written).map fun ps => (⟨ps.foldr prepend []⟩, rest)

/-- Takes a number: an integer unless it has a fraction or an exponent. -/
def takeNumber? (cs : List Char) : Option (Document × List Char) :=
  let isPart (c : Char) : Bool := c.isDigit || "+-.eE".contains c
  let (negative, magnitude) := match cs.takeWhile isPart with
    | '-' :: ds => (true, ds)
    | ds => (false, ds)
  (Numeral.ofChars? magnitude).map fun d =>
    let number : Document :=
      if magnitude.all Char.isDigit then .int (if negative then -(d.digits : Int) else d.digits)
      else .float (if negative then d.toBinary64.neg else d.toBinary64)
    (number, cs.dropWhile isPart)

/-- The documents that are words. -/
def words : List (String × Document) :=
  [("null", .null), ("true", .bool true), ("false", .bool false), ("NaN", .float .nan),
    ("Infinity", .float .posInf), ("-Infinity", .float .negInf)]

/-- Takes a word or a number. -/
def takeScalar? (cs : List Char) : Option (Document × List Char) :=
  match words.find? fun (word, _) => word.toList.isPrefixOf cs with
  | some (word, d) => some (d, cs.drop word.length)
  | none => takeNumber? cs

mutual

/-- Takes a document. Fuel is spent on every document and on every part of one. -/
def takeDocument? : (fuel : Nat) → List Char → Option (Document × List Char)
  | 0, _ => none
  | fuel + 1, cs =>
    match dropBlanks cs with
    | '"' :: cs => (takeString? cs).map fun (t, rest) => (.str t, rest)
    | '[' :: cs =>
      match dropBlanks cs with
      | ']' :: rest => some (.arr [], rest)
      | cs => takeItems? fuel [] cs
    | '\x7b' :: cs =>
      match dropBlanks cs with
      | '\x7d' :: rest => some (.obj [], rest)
      | cs => takeFields? fuel [] cs
    | cs => takeScalar? cs

/-- Takes the items of an array with its end, after those that are given in reverse. -/
def takeItems? : (fuel : Nat) → (before : List Document) → List Char →
    Option (Document × List Char)
  | 0, _, _ => none
  | fuel + 1, before, cs => do
    let (d, rest) ← takeDocument? fuel cs
    match dropBlanks rest with
    | ',' :: rest => takeItems? fuel (d :: before) rest
    | ']' :: rest => return (.arr (d :: before).reverse, rest)
    | _ => none

/-- Takes the fields of an object with its end, after those that are given in reverse. -/
def takeFields? : (fuel : Nat) → (before : List (Text × Document)) → List Char →
    Option (Document × List Char)
  | 0, _, _ => none
  | fuel + 1, before, cs => do
    match dropBlanks cs with
    | '"' :: cs =>
      let (name, rest) ← takeString? cs
      match dropBlanks rest with
      | ':' :: rest =>
        let (d, rest) ← takeDocument? fuel rest
        match dropBlanks rest with
        | ',' :: rest => takeFields? fuel ((name, d) :: before) rest
        | '\x7d' :: rest => return (.obj ((name, d) :: before).reverse, rest)
        | _ => none
      | _ => none
    | _ => none

end

/-- Reads a document. -/
def Document.ofText? (s : String) : Option Document :=
  let cs := s.toList
  (takeDocument? (2 * cs.length + 2) cs).bind fun (d, rest) =>
    if dropBlanks rest = [] then some d else none

end Semijoin.Json
