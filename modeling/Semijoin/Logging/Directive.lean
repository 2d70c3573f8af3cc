import Semijoin.Numeric.Places
import Semijoin.Value.Display

/-!
# Directives of message templates

A directive says how an argument is written: the letter at its end gives the form, and flags, a
least width and a precision in front of the letter give the rest. `s`, `r` and `a` stand for the
plain, quoted and ASCII text of an argument, `d`, `i` and `u` for its whole part, `o`, `x` and `X`
for an integer in base 8 and 16, `e`, `f` and `g` for a double, and `c` for a character.
-/

namespace Semijoin.Logging

/-- Why a template cannot be filled. -/
inductive TemplateError where
  | wrongArguments
  | tooLarge
  | tooLong
  | notANumber (kind result : String)
  | missingName (name : Value)
  | openName
  | openDirective
  | wideWidth
  | widePrecision
  | unknownDirective (letter : CodePoint) (position : Nat)

/-- The shortest hexadecimal numeral in lower case. -/
def hexNumeral (n : Nat) : String := String.ofList (Nat.toDigits 16 n)

def TemplateError.message : TemplateError → Text
  | wrongArguments => "wrong arguments"
  | tooLarge => "number too large"
  | tooLong => Value.tooLongMessage
  | notANumber kind result => s!"cannot convert {kind} to {result}"
  | missingName name => name.plain
  | openName => "incomplete format key"
  | openDirective => "incomplete format"
  | wideWidth => "width too big"
  | widePrecision => "precision too big"
  | unknownDirective letter position =>
    let shown := if 31 ≤ letter.code ∧ letter.code ≤ 126 then letter.toChar else '?'
    s!"unsupported format character '{shown}' (0x{hexNumeral letter.code}) at index {position}"

/-- A width or precision: a number, or the next argument. -/
inductive Count where
  | number (n : Nat)
  | argument
deriving DecidableEq

/-- The letter of a directive is missing if the template ends inside it; otherwise it comes with its
position in the template. -/
structure Directive where
  flags : List CodePoint
  width : Option Count
  precision : Option Count
  letter : Option (CodePoint × Nat)
deriving DecidableEq

namespace Directive

/-- The number in front and the rest. -/
def takeNumber (ps : List CodePoint) : Nat × List CodePoint :=
  let digits := (ps.takeWhile (·.toChar.isDigit)).map CodePoint.toChar
  ((Numeral.takeDigits digits).1, ps.drop digits.length)

/-- The width in front, if there is one, and the rest. -/
def takeWidth : List CodePoint → Option Count × List CodePoint
  | .char '*' :: ps => (some .argument, ps)
  | p :: ps =>
    if p.toChar.isDigit then
      let (n, rest) := takeNumber (p :: ps)
      (some (.number n), rest)
    else (none, p :: ps)
  | [] => (none, [])

/-- The precision in front, if there is one, and the rest. A point without digits counts as zero. -/
def takePrecision : List CodePoint → Option Count × List CodePoint
  | .char '.' :: .char '*' :: ps => (some .argument, ps)
  | .char '.' :: ps =>
    let (n, rest) := takeNumber ps
    (some (.number n), rest)
  | ps => (none, ps)

/-- Passes over a letter that gives the size of the argument; it has no effect. -/
def dropSize : List CodePoint → List CodePoint
  | .char 'h' :: ps | .char 'l' :: ps | .char 'L' :: ps => ps
  | ps => ps

def isFlag (p : CodePoint) : Bool := "-+ #0".contains p.toChar

/-- The directive in front, in a template of `size` code points, and the rest. -/
def ofPoints (size : Nat) (ps : List CodePoint) : Directive × List CodePoint :=
  let (width, rest) := takeWidth (ps.dropWhile isFlag)
  let (precision, rest) := takePrecision rest
  match dropSize rest with
  | [] => (⟨ps.takeWhile isFlag, width, precision, none⟩, [])
  | p :: rest =>
    (⟨ps.takeWhile isFlag, width, precision, some (p, size - rest.length - 1)⟩, rest)

end Directive

/-- What a directive asks for once its numbers are known. -/
structure Form where
  alignLeft : Bool
  showPlus : Bool
  showSpace : Bool
  alternate : Bool
  fillZeros : Bool
  width : Nat
  precision : Option Nat

namespace Form

/-- Fills up to the width. Zeros go between the sign and the digits of a number. -/
def fill (form : Form) (isNumber : Bool) (sign body : Text) : Text :=
  let missing := form.width - (sign.points.length + body.points.length)
  let filling (c : Char) : Text := .ofChars (List.replicate missing c)
  if form.alignLeft then sign ++ body ++ filling ' '
  else if isNumber && form.fillZeros then sign ++ filling '0' ++ body
  else filling ' ' ++ sign ++ body

/-- A text, cut to the precision. -/
def text (form : Form) (t : Text) : Text :=
  form.fill false ⟨[]⟩ (match form.precision with
    | some n => ⟨t.points.take n⟩
    | none => t)

/-- A number by its sign and its digits, whose letters can be capitals. -/
def number (form : Form) (capital : Bool) (sign body : List Char) : Text :=
  let shown (cs : List Char) : Text := .ofChars (if capital then cs.map Char.toUpper else cs)
  form.fill true (shown sign) (shown body)

/-- The sign in front of a number. -/
def sign (form : Form) (isNegative : Bool) : List Char :=
  if isNegative then ['-']
  else if form.showPlus then ['+']
  else if form.showSpace then [' ']
  else []

/-- An integer in a base, with at least as many digits as the precision. The mark of the base comes
after the sign. -/
def integer (form : Form) (capital : Bool) (base : Nat) (mark : List Char) (n : Int) : Text :=
  let digits := Nat.toDigits base n.natAbs
  let zeros := List.replicate (form.precision.getD 0 - digits.length) '0'
  let sign := form.sign (n < 0)
  form.number capital (if form.alternate then sign ++ mark else sign) (zeros ++ digits)

/-- A double by the small letter of its form. Without a precision there are six places. -/
def double (form : Form) (capital : Bool) (letter : Char) (x : Binary64) : Text :=
  let places := form.precision.getD 6
  let style : PlacesStyle := ⟨form.alternate, form.alternate || letter ≠ 'g'⟩
  let magnitude (q : Rat) : List Char :=
    let q := if q < 0 then -q else q
    if letter = 'e' then Places.scientific style places q
    else if letter = 'f' then Places.fixed style places q
    else Places.general style places q
  let body := match x.toRat? with
    | some q => magnitude q
    | none => if x.isNaN then "nan".toList else "inf".toList
  form.number capital (form.sign x.isNegative) body

end Form

namespace Directive

/-- A rational without its fraction. -/
def truncate (q : Rat) : Int := q.num.tdiv q.den

/-- The whole part of a number. -/
def wholePart (v : Value) : Except TemplateError Int :=
  match v.amount? with
  | none => .error .wrongArguments
  | some amount =>
    match amount.toRat?, amount with
    | some q, _ => .ok (truncate q)
    | none, .nan =>
      .error (.notANumber (match v with
        | .float _ => "float NaN"
        | _ => "NaN") "integer")
    | none, _ => .error .tooLarge

/-- The double nearest to a number. -/
def double (v : Value) : Except TemplateError Binary64 :=
  let nearest (q : Rat) : Except TemplateError Binary64 :=
    match Binary64.ofRat? q with
    | some x => .ok x
    | none => .error .tooLarge
  match v with
  | .bool b => .ok (if b then .one else .zero)
  | .int n => nearest n
  | .fraction q => nearest q
  | .float x => .ok x
  | .decimal (.finite negative d) => .ok (if negative then d.toBinary64.neg else d.toBinary64)
  | .decimal (.infinite negative) => .ok (.infinity negative)
  | .decimal (.nan _ signaling _) =>
    if signaling then .error (.notANumber "signaling NaN" "float") else .ok .nan
  | _ => .error .wrongArguments

/-- An integer, which no other number can stand for. -/
def integer (v : Value) : Except TemplateError Int :=
  match v with
  | .int n => .ok n
  | .bool b => .ok (if b then 1 else 0)
  | _ => .error .wrongArguments

/-- The code point that an argument is or gives the number of. -/
def codePoint (v : Value) : Except TemplateError CodePoint :=
  match v with
  | .str ⟨[p]⟩ => .ok p
  | .int _ | .bool _ => do
    let n ← integer v
    match CodePoint.ofNat? n.toNat with
    | some p => if n < 0 then .error .tooLarge else .ok p
    | none => .error .tooLarge
  | _ => .error .wrongArguments

/-- A text with everything outside ASCII escaped. -/
def asciiText (t : Text) : Text :=
  .ofChars <| t.points.flatMap fun p =>
    if p.code < 0x80 then [p.toChar] else Quoted.hexEscape p.code

/-- An argument in the form that the letter of a directive asks for. -/
def convert (form : Form) (letter : CodePoint) (position : Nat) (v : Value) :
    Except TemplateError Text :=
  let writable (t : Text) : Except TemplateError Text :=
    if v.isWritable then .ok (form.text t) else .error .tooLong
  match letter.toChar with
  | 's' => writable v.plain
  | 'r' => writable v.quoted
  | 'a' => writable (asciiText v.quoted)
  | 'd' | 'i' | 'u' => do
    let n ← wholePart v
    if Value.isShort n then return form.integer false 10 [] n else throw .tooLong
  | 'o' => form.integer false 8 ['0', 'o'] <$> integer v
  | 'x' => form.integer false 16 ['0', 'x'] <$> integer v
  | 'X' => form.integer true 16 ['0', 'x'] <$> integer v
  | 'e' | 'f' | 'g' => form.double false letter.toChar <$> double v
  | 'E' | 'F' | 'G' => form.double true letter.toChar.toLower <$> double v
  | 'c' => (fun p => form.fill false ⟨[]⟩ ⟨[p]⟩) <$> codePoint v
  | _ => .error (.unknownDirective letter position)

end Directive

end Semijoin.Logging
