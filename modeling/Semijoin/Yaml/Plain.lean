import Semijoin.Yaml.Basic

/-!
# Plain scalars

A plain scalar is made of runs of characters with gaps between them. A gap within a line is part of
the text; one that crosses lines is folded as in quoted scalars. The scalar ends before a comment,
before a colon that marks a value, before a line that is not indented enough, before a marker
between documents, and within brackets before the characters that structure them.
-/

namespace Semijoin.Yaml.Plain

/-- Whether a colon in front of this text marks a value. -/
def endsKey (inFlow : Bool) (cs : List Char) : Bool :=
  atGap cs || (inFlow && match cs with
    | c :: _ => ",[]\x7b\x7d".contains c
    | [] => false)

/-- The run of characters in front, and the rest. -/
def run (inFlow : Bool) : List Char → List Char × List Char
  | [] => ([], [])
  | c :: cs =>
    if isBlank c || isBreak c || (c = ':' && endsKey inFlow cs) ||
        (inFlow && ",?[]\x7b\x7d".contains c) then ([], c :: cs)
    else
      let (text, rest) := run inFlow cs
      (c :: text, rest)

/-- A gap between runs: what it counts as, the rest, and the column that the rest starts at if it
is on another line. Without text the scalar ends. -/
structure Gap where
  text : List Char
  rest : List Char
  column : Option Nat := none

/-- The breaks of the empty lines in front, the rest and its column. At a marker between documents
there are no breaks. -/
def emptyLines (column : Nat) : List Char → Option (List Char) × List Char × Nat
  | [] => (some [], [], column)
  | c :: cs =>
    if c = ' ' then emptyLines (column + 1) cs
    else if isBreak c then
      if atMarker cs then (none, cs, 0)
      else
        let (breaks, rest, column) := emptyLines 0 cs
        (breaks.map (breakText c :: ·), rest, column)
    else (some [], c :: cs, column)

/-- The gap in front. -/
def gap (cs : List Char) : Gap :=
  let spaces := cs.takeWhile (· = ' ')
  match cs.dropWhile (· = ' ') with
  | [] => ⟨spaces, [], none⟩
  | c :: cs =>
    if !isBreak c then ⟨spaces, c :: cs, none⟩
    else if atMarker cs then ⟨[], cs, some 0⟩
    else
      match emptyLines 0 cs with
      | (none, rest, column) => ⟨[], rest, some column⟩
      | (some breaks, rest, column) =>
        if breakText c ≠ '\n' then ⟨c :: breaks, rest, some column⟩
        else if breaks = [] then ⟨[' '], rest, some column⟩
        else ⟨breaks, rest, some column⟩

/-- A plain scalar: its text, the rest, and whether its end crosses to another line. -/
structure Scanned where
  text : List Char
  rest : List Char
  crossesLine : Bool

/-- The plain scalar in front, in lines indented by at least `indent`. Every run leaves less to
read. -/
def scan (inFlow : Bool) (indent : Nat) (cs : List Char) : Scanned :=
  let (text, rest) := run inFlow cs
  let g := gap rest
  let last : Scanned := ⟨text, g.rest, g.column.isSome⟩
  let shallow := !inFlow && g.column.any (· < indent)
  if g.text = [] || g.rest.head? = some '#' || shallow then last
  else if (run inFlow g.rest).1 = [] then last
  else if g.rest.length < cs.length then
    let more := scan inFlow indent g.rest
    { more with text := text ++ g.text ++ more.text }
  else last
termination_by cs.length

/-- Whether a plain scalar can start here. -/
def startsHere (inFlow : Bool) : List Char → Bool
  | [] => false
  | c :: cs =>
    if c = '-' then !atGap cs
    else if c = '?' || c = ':' then !inFlow && !atGap cs
    else !isBlank c && !isBreak c && !",[]\x7b\x7d#&*!|>'\"%@\x60".contains c

end Semijoin.Yaml.Plain
