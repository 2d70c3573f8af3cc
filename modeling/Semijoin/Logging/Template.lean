import Semijoin.Logging.Directive

/-!
# Message templates

A template is text with directives that arguments take the place of; `%%` is a percent sign. A name
in parentheses at the start of a directive selects an entry of the only argument, which has to be a
map. Every argument must be used, except a map.
-/

namespace Semijoin.Logging

namespace Template

/-- A part of a template: a code point, the selection of an argument by name, unless the name is
left open, or a directive. -/
inductive Piece where
  | point (p : CodePoint)
  | select (name : Option Text)
  | convert (d : Directive)
deriving DecidableEq

/-- The name up to the parenthesis that closes it, and the rest. Parentheses inside the name are
counted by `depth`. -/
def takeName (depth : Nat) : List CodePoint → Option (List CodePoint × List CodePoint)
  | [] => none
  | p :: ps =>
    if p = .char ')' ∧ depth = 0 then some ([], ps)
    else
      let depth :=
        if p = .char '(' then depth + 1 else if p = .char ')' then depth - 1 else depth
      (takeName depth ps).map fun (name, rest) => (p :: name, rest)

/-- The pieces of a directive after its percent sign, and the rest. -/
def directivePieces (size : Nat) (ps : List CodePoint) : List Piece × List CodePoint :=
  let convert (ps : List CodePoint) : Piece × List CodePoint :=
    let (d, rest) := Directive.ofPoints size ps
    (.convert d, rest)
  match ps with
  | .char '(' :: ps =>
    match takeName 0 ps with
    | none => ([.select none], [])
    | some (name, rest) =>
      let (d, rest) := convert rest
      ([.select (some ⟨name⟩), d], rest)
  | ps =>
    let (d, rest) := convert ps
    ([d], rest)

/-- The pieces of a template of `size` code points of which the given ones are left. Every step
leaves less to read, which is checked where a step reads a directive. -/
def pieces (size : Nat) (ps : List CodePoint) : List Piece :=
  match ps with
  | [] => []
  | .char '%' :: .char '%' :: ps => .point (.char '%') :: pieces size ps
  | .char '%' :: ps =>
    let (front, rest) := directivePieces size ps
    if rest.length ≤ ps.length then front ++ pieces size rest else front
  | p :: ps => .point p :: pieces size ps
termination_by ps.length
decreasing_by all_goals simp only [List.length_cons] at *; omega

/-- The integer that the next argument gives for a width or precision, and the arguments after it.
-/
def takeCount (waiting : List Value) : Except TemplateError (Int × List Value) :=
  match waiting with
  | [] => .error .wrongArguments
  | v :: waiting => (Directive.integer v).map (·, waiting)

/-- The bound of the numbers that fit in 64 bits with their sign. -/
def widthBound : Nat := 0x8000000000000000

/-- The bound of the numbers that fit in 32 bits with their sign. -/
def precisionBound : Nat := 0x80000000

/-- The width of a directive: its size, whether it asks for alignment to the left, and the arguments
that are left. It fits in 64 bits. -/
def takeWidth (d : Directive) (waiting : List Value) :
    Except TemplateError (Nat × Bool × List Value) :=
  match d.width with
  | none => .ok (0, false, waiting)
  | some (.number n) => if n < widthBound then .ok (n, false, waiting) else .error .wideWidth
  | some .argument => do
    let (n, waiting) ← takeCount waiting
    if n < -widthBound ∨ widthBound ≤ n then throw .tooLarge
    return (n.natAbs, n < 0, waiting)

/-- The precision of a directive and the arguments that are left. It fits in 32 bits; a negative one
counts as zero. -/
def takePrecision (d : Directive) (waiting : List Value) :
    Except TemplateError (Option Nat × List Value) :=
  match d.precision with
  | none => .ok (none, waiting)
  | some (.number n) => if n < precisionBound then .ok (some n, waiting) else .error .widePrecision
  | some .argument => do
    let (n, waiting) ← takeCount waiting
    if n < -precisionBound ∨ precisionBound ≤ n then throw .tooLarge
    return (some n.toNat, waiting)

/-- The text of a directive and the arguments that are left. -/
def fillDirective (d : Directive) (waiting : List Value) :
    Except TemplateError (Text × List Value) := do
  let (width, alignLeft, waiting) ← takeWidth d waiting
  let (precision, waiting) ← takePrecision d waiting
  let form : Form := {
    alignLeft := alignLeft || d.flags.contains (.char '-')
    showPlus := d.flags.contains (.char '+')
    showSpace := d.flags.contains (.char ' ')
    alternate := d.flags.contains (.char '#')
    fillZeros := d.flags.contains (.char '0')
    width
    precision }
  match d.letter, waiting with
  | none, _ => throw .openDirective
  | some _, [] => throw .wrongArguments
  | some (letter, position), v :: waiting =>
    return (← Directive.convert form letter position v, waiting)

/-- Fills the pieces. `named` holds the entries that can be selected, `waiting` the arguments that
have not been used. A selected entry takes the place of the arguments that wait. -/
def fillPieces (named : Option (List (Value × Value))) (waiting : List Value) :
    List Piece → Except TemplateError Text
  | [] => if named.isNone ∧ waiting ≠ [] then .error .wrongArguments else .ok ⟨[]⟩
  | .point p :: ps => do return ⟨p :: (← fillPieces named waiting ps).points⟩
  | .select name :: ps =>
    match named, name with
    | none, _ => .error .wrongArguments
    | some _, none => .error .openName
    | some entries, some name =>
      match entries.find? fun (key, _) => key.sameScalar (.str name) with
      | none => .error (.missingName (.str name))
      | some (_, v) => fillPieces named [v] ps
  | .convert d :: ps => do
    let (text, waiting) ← fillDirective d waiting
    return text ++ (← fillPieces named waiting ps)

end Template

/-- Fills a template with arguments. Without arguments it is plain text. A single map that is not
empty offers its entries by name. -/
def fillTemplate (template : Text) (arguments : List Value) : Except TemplateError Text :=
  let named := match arguments with
    | [.map (entry :: entries)] => some (entry :: entries)
    | _ => none
  if arguments.isEmpty then .ok template
  else
    Template.fillPieces named arguments
      (Template.pieces template.points.length template.points)

end Semijoin.Logging
