import Semijoin.Yaml.Basic

/-!
# Block scalars

A block scalar is the lines after its header that are indented far enough. A literal one keeps its
line breaks; in a folded one a single break between two lines that start without a blank counts as
a space. The header may give the indentation and what happens to the breaks at the end: by default
one is kept, `-` keeps none and `+` keeps all.
-/

namespace Semijoin.Yaml.Block

/-- What happens to the line breaks at the end. -/
inductive Chomping where
  | strip
  | clip
  | keep
deriving DecidableEq

def chomping? : Char → Option Chomping
  | '-' => some .strip
  | '+' => some .keep
  | _ => none

/-- A digit that gives the indentation; zero is none. -/
def increment? (c : Char) : Option Nat :=
  if '1' ≤ c ∧ c ≤ '9' then some (c.toNat - '0'.toNat) else none

/-- The two indicators of a header, in either order, and the rest. -/
def indicators : List Char → Chomping × Option Nat × List Char
  | [] => (.clip, none, [])
  | a :: cs =>
    match chomping? a, increment? a, cs with
    | some chomping, _, b :: rest =>
      match increment? b with
      | some n => (chomping, some n, rest)
      | none => (chomping, none, cs)
    | some chomping, _, [] => (chomping, none, [])
    | none, some n, b :: rest =>
      match chomping? b with
      | some chomping => (chomping, some n, rest)
      | none => (.clip, some n, cs)
    | none, some n, [] => (.clip, some n, [])
    | none, none, _ => (.clip, none, a :: cs)

/-- The breaks of the empty lines in front, the rest and its column. At most `indent` spaces of a
line are indentation. -/
def emptyLines (indent column : Nat) : List Char → List Char × List Char × Nat
  | [] => ([], [], column)
  | c :: cs =>
    if c = ' ' ∧ column < indent then emptyLines indent (column + 1) cs
    else if isBreak c then
      let (breaks, rest, column) := emptyLines indent 0 cs
      (breakText c :: breaks, rest, column)
    else ([], c :: cs, column)

/-- The widest indentation of the empty lines in front and the line after them. -/
def widest (column : Nat) : List Char → Nat
  | [] => column
  | c :: cs =>
    if c = ' ' then widest (column + 1) cs
    else if isBreak c then max column (widest 0 cs)
    else column

/-- The lines of a scalar: their text without the last break, that break, the breaks of the empty
lines after it, and the rest. -/
structure Lines where
  text : List Char
  lastBreak : List Char
  trailing : List Char
  rest : List Char

/-- The lines at an indentation, after empty lines with the given breaks. -/
def lines (folded : Bool) (indent : Nat) (breaks : List Char) (cs : List Char) (column : Nat) :
    Lines :=
  if column ≠ indent ∨ cs = [] then ⟨[], [], breaks, cs⟩
  else
    let line := cs.takeWhile (!isBreak ·)
    let (lastBreak, after) := match cs.dropWhile (!isBreak ·) with
      | [] => ([], [])
      | c :: after => ([breakText c], after)
    let (breaks', rest, column') := emptyLines indent 0 after
    let startsWithText : List Char → Bool
      | [] => false
      | c :: _ => !isBlank c
    if column' ≠ indent ∨ rest = [] then ⟨breaks ++ line, lastBreak, breaks', rest⟩
    else
      let joint :=
        if folded && lastBreak = ['\n'] && startsWithText cs && startsWithText rest then
          (if breaks' = [] then [' '] else [])
        else lastBreak
      if rest.length < cs.length then
        let more := lines folded indent breaks' rest column'
        { more with text := breaks ++ line ++ joint ++ more.text }
      else ⟨breaks ++ line, lastBreak, breaks', rest⟩
termination_by cs.length

/-- Drops a comment, up to the end of its line. -/
def dropComment : List Char → List Char
  | '#' :: cs => cs.dropWhile (!isBreak ·)
  | cs => cs

/-- The block scalar whose header follows, in a block that is indented to `least - 1`. -/
def scan (folded : Bool) (least : Nat) (cs : List Char) :
    Except Fault (List Char × List Char) :=
  let (chomping, increment, afterHeader) := indicators cs
  let spaces := afterHeader.dropWhile (· = ' ')
  let body? : Option (List Char) :=
    if !atGap afterHeader || afterHeader.head? = some '\t' then none
    else match dropComment spaces with
      | [] => some []
      | c :: cs => if isBreak c then some cs else none
  match body? with
  | none => .error .malformed
  | some body =>
    let least := max 1 least
    let indent := match increment with
      | some n => least + n - 1
      | none => max least (widest 0 body)
    let (breaks, rest, column) := emptyLines indent 0 body
    let ls := lines folded indent breaks rest column
    .ok (ls.text ++ (if chomping = .strip then [] else ls.lastBreak) ++
      (if chomping = .keep then ls.trailing else []), ls.rest)

end Semijoin.Yaml.Block
