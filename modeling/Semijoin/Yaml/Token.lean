import Semijoin.Yaml.Block
import Semijoin.Yaml.Directive
import Semijoin.Yaml.Plain
import Semijoin.Yaml.Quoted

/-!
# Tokens of a YAML document

A document as a list of tokens, in which the indentation of blocks has become explicit starts and
ends. What a key is shows only at the colon after it, so the place of every token that could be a
key is remembered, one for each level of brackets, and the mark of a key is put there later. A key
without a mark of its own has to end on its line and within 1024 characters.

Tokens are handed out as soon as it is certain that no mark of a key comes in front of them. Where
the text breaks off with a fault, the tokens that have been handed out by then count.
-/

namespace Semijoin.Yaml

inductive Token where
  | documentStart
  | documentEnd
  | blockSequence
  | blockMapping
  | blockEnd
  | openSequence
  | closeSequence
  | openMapping
  | closeMapping
  | entry
  | comma
  | key
  | value
  | directive (d : Directive)
  | tag (t : WrittenTag)
  | anchor (name : String)
  | anchorUse (name : String)
  | scalar (text : Text) (plain : Bool)
deriving DecidableEq, Inhabited

/-- A position in a document with the text that follows it. -/
structure Cursor where
  rest : List Char
  index : Nat := 0
  line : Nat := 0
  column : Nat := 0

namespace Cursor

def step (c : Cursor) : Cursor :=
  match c.rest with
  | [] => c
  | ch :: rest =>
    if isBreak ch then ⟨rest, c.index + 1, c.line + 1, 0⟩
    else ⟨rest, c.index + 1, c.line, if ch = '\ufeff' then c.column else c.column + 1⟩

def skip (c : Cursor) : Nat → Cursor
  | 0 => c
  | n + 1 => c.step.skip n

/-- The position at which `rest` follows, which is an end of the text that follows now. -/
def moveTo (c : Cursor) (rest : List Char) : Cursor := c.skip (c.rest.length - rest.length)

end Cursor

/-- A token that could turn out to be a key: its place among the tokens and in the document, and
whether it must be one. -/
structure Candidate where
  place : Nat
  required : Bool
  index : Nat
  line : Nat
  column : Nat

/-- A document that has been read up to the cursor. The indentations of the open blocks and the
candidates for keys are listed from the innermost outwards; the candidate of the current level
stands apart from those of the enclosing brackets. -/
structure Lexer where
  cursor : Cursor
  tokens : Array Token := #[]
  indents : List Nat := []
  keyAllowed : Bool := true
  candidate : Option Candidate := none
  outer : List (Option Candidate) := []

namespace Lexer

def rest (l : Lexer) : List Char := l.cursor.rest

def inFlow (l : Lexer) : Bool := !l.outer.isEmpty

def push (l : Lexer) (t : Token) : Lexer := { l with tokens := l.tokens.push t }

def skip (l : Lexer) (n : Nat) : Lexer := { l with cursor := l.cursor.skip n }

def moveTo (l : Lexer) (rest : List Char) : Lexer := { l with cursor := l.cursor.moveTo rest }

def allowKey (l : Lexer) (keyAllowed : Bool) : Lexer := { l with keyAllowed }

/-- The number of characters that are spaces, comments and line breaks, and whether there are breaks
among them. -/
def gapSize (inComment : Bool) : List Char → Nat × Bool
  | [] => (0, false)
  | c :: cs =>
    let goOn (inComment crossesLine : Bool) : Nat × Bool :=
      let (size, crosses) := gapSize inComment cs
      (size + 1, crosses || crossesLine)
    if isBreak c then goOn false true
    else if inComment || c = ' ' then goOn inComment false
    else if c = '#' then goOn true false
    else (0, false)

/-- Moves to the next token. On a new line of a block there can be a key. -/
def skipGap (l : Lexer) : Lexer :=
  let (size, crossesLine) := gapSize false l.rest
  (l.skip size).allowKey (l.keyAllowed || (crossesLine && !l.inFlow))

/-- Gives up the candidates that the cursor is too far from. -/
def dropStale (l : Lexer) : Except Fault Lexer :=
  let isStale (k : Candidate) : Bool :=
    k.line ≠ l.cursor.line || k.index + 1024 < l.cursor.index
  if (l.candidate :: l.outer).any (·.any fun k => k.required && isStale k) then .error .malformed
  else
    .ok { l with
      candidate := l.candidate.filter (!isStale ·)
      outer := l.outer.map (·.filter (!isStale ·)) }

/-- Gives up the candidate of the current level. -/
def dropCandidate (l : Lexer) : Except Fault Lexer :=
  if l.candidate.any (·.required) then .error .malformed else .ok { l with candidate := none }

/-- Remembers that the next token could be a key. At the indentation of a block it must be one. -/
def noteCandidate (l : Lexer) : Except Fault Lexer :=
  if !l.keyAllowed then .ok l
  else do
    let l ← l.dropCandidate
    let c := l.cursor
    let required := !l.inFlow && l.indents.head? = some c.column
    return { l with candidate := some ⟨l.tokens.size, required, c.index, c.line, c.column⟩ }

/-- Whether a column is to the right of the innermost open block. -/
def isDeeper (l : Lexer) (column : Nat) : Bool := l.indents.head?.all (· < column)

/-- Opens a block at the cursor, unless the innermost one is there already. -/
def openBlock (l : Lexer) (start : Token) : Lexer :=
  if l.isDeeper l.cursor.column then
    { l.push start with indents := l.cursor.column :: l.indents }
  else l

/-- Closes the innermost open blocks, as long as their indentation satisfies `past`. -/
def closeBlocks (l : Lexer) (past : Nat → Bool) : Lexer :=
  if l.inFlow then l
  else
    { l with
      indents := l.indents.dropWhile past
      tokens := l.tokens ++ (l.indents.takeWhile past).map fun _ => Token.blockEnd }

/-- A marker between documents. -/
def marker (l : Lexer) (t : Token) : Except Fault Lexer := do
  let l ← (l.closeBlocks fun _ => true).dropCandidate
  return ((l.allowKey false).skip 3).push t

/-- An opening bracket. -/
def openFlow (l : Lexer) (t : Token) : Except Fault Lexer := do
  let l ← l.noteCandidate
  let l := { l with candidate := none, outer := l.candidate :: l.outer }
  return ((l.allowKey true).skip 1).push t

/-- A closing bracket. -/
def closeFlow (l : Lexer) (t : Token) : Except Fault Lexer :=
  match l.outer with
  | [] => .error .malformed
  | candidate :: outer => do
    let l ← l.dropCandidate
    return (({ l with candidate, outer }.allowKey false).skip 1).push t

def comma (l : Lexer) : Except Fault Lexer := do
  let l ← l.dropCandidate
  return ((l.allowKey true).skip 1).push .comma

/-- A mark of one character that opens a block by standing at its indentation. -/
def blockMark (l : Lexer) (start mark : Token) (keyAllowed : Bool) : Except Fault Lexer :=
  if !l.inFlow && !l.keyAllowed then .error .malformed
  else do
    let l ← (if l.inFlow then l else l.openBlock start).dropCandidate
    return ((l.allowKey keyAllowed).skip 1).push mark

/-- A colon: what stands where the candidate was is the key. Without a candidate the key has been
marked or is missing. -/
def colon (l : Lexer) : Except Fault Lexer :=
  match l.candidate with
  | none => l.blockMark .blockMapping .value (!l.inFlow)
  | some k =>
    let opens := !l.inFlow && l.isDeeper k.column
    let marks := if opens then #[Token.blockMapping, .key] else #[.key]
    let l := { l with
      candidate := none
      indents := if opens then k.column :: l.indents else l.indents
      tokens := l.tokens.extract 0 k.place ++ marks ++ l.tokens.extract k.place l.tokens.size }
    .ok (((l.allowKey false).skip 1).push .value)

/-- An anchor or the use of one. -/
def reference (l : Lexer) (token : String → Token) (cs : List Char) : Except Fault Lexer := do
  let l ← l.noteCandidate
  let name := cs.takeWhile isNameChar
  let rest := cs.dropWhile isNameChar
  let ends := atGap rest || rest.head?.any ("?:,]\x7d%@\x60".contains ·)
  if name.isEmpty || !ends then throw .malformed
  return ((l.allowKey false).moveTo rest).push (token (String.ofList name))

/-- The tag of a node. -/
def tag (l : Lexer) : Except Fault Lexer := do
  let l ← l.noteCandidate
  let (t, rest) ← Directive.takeWrittenTag l.rest
  return ((l.allowKey false).moveTo rest).push (.tag t)

/-- A directive, after its percent sign. -/
def directive (l : Lexer) (cs : List Char) : Except Fault Lexer := do
  let l ← (l.closeBlocks fun _ => true).dropCandidate
  let (d, rest) ← Directive.ofChars cs
  return ((l.allowKey false).moveTo rest).push (.directive d)

def quoted (l : Lexer) (quote : Char) (cs : List Char) : Except Fault Lexer := do
  let l ← l.noteCandidate
  let (text, rest) ← Quoted.body quote cs
  return ((l.allowKey false).moveTo rest).push (.scalar ⟨text⟩ false)

/-- The least indentation of text inside the innermost open block. -/
def textIndent (l : Lexer) : Nat := (l.indents.head?.map (· + 1)).getD 0

def plain (l : Lexer) : Except Fault Lexer := do
  let l ← l.noteCandidate
  let s := Plain.scan l.inFlow l.textIndent l.rest
  return ((l.allowKey s.crossesLine).moveTo s.rest).push (.scalar (.ofChars s.text) true)

def block (l : Lexer) (folded : Bool) (cs : List Char) : Except Fault Lexer := do
  let l ← l.dropCandidate
  let (text, rest) ← Block.scan folded l.textIndent cs
  return ((l.allowKey true).moveTo rest).push (.scalar (.ofChars text) false)

/-- The token that starts with `c`. -/
def next (l : Lexer) (c : Char) (cs : List Char) : Except Fault Lexer :=
  if l.cursor.column = 0 ∧ c = '%' then l.directive cs
  else if l.cursor.column = 0 ∧ atMarker (c :: cs) then
    l.marker (if c = '-' then .documentStart else .documentEnd)
  else if c = '[' then l.openFlow .openSequence
  else if c = '\x7b' then l.openFlow .openMapping
  else if c = ']' then l.closeFlow .closeSequence
  else if c = '\x7d' then l.closeFlow .closeMapping
  else if c = ',' then l.comma
  else if c = '-' ∧ atGap cs then l.blockMark .blockSequence .entry true
  else if c = '?' ∧ (l.inFlow ∨ atGap cs) then l.blockMark .blockMapping .key (!l.inFlow)
  else if c = ':' ∧ (l.inFlow ∨ atGap cs) then l.colon
  else if c = '*' then l.reference .anchorUse cs
  else if c = '&' then l.reference .anchor cs
  else if c = '!' then l.tag
  else if (c = '|' ∨ c = '>') ∧ !l.inFlow then l.block (c = '>') cs
  else if c = '\'' ∨ c = '"' then l.quoted c cs
  else if Plain.startsHere l.inFlow (c :: cs) then l.plain
  else .error .malformed

/-- Reads up to the end of the next token. At the end of the text no lexer is left, only tokens. -/
def advance (l : Lexer) : Except Fault (Lexer ⊕ Array Token) := do
  let l ← l.skipGap.dropStale
  match l.rest with
  | [] => (.inr ·.tokens) <$> (l.closeBlocks fun _ => true).dropCandidate
  | c :: cs => .inl <$> (l.closeBlocks (l.cursor.column < ·)).next c cs

/-- The number of tokens that no mark of a key can come in front of any more. -/
def certain (l : Lexer) : Nat :=
  (l.candidate :: l.outer).foldl (fun n k => match k with
    | some k => if k.place < n then k.place else n
    | none => n) l.tokens.size

end Lexer

/-- The tokens of a text, up to its end or up to a fault in it. -/
structure Token.Stream where
  tokens : List Token
  fault : Option Fault := none

/-- Reads the rest of the document. Every token takes at least one character, so `fuel` beyond
their number is not used. -/
def Lexer.run : (fuel : Nat) → Lexer → Token.Stream
  | 0, _ => ⟨[], some .malformed⟩
  | fuel + 1, l =>
    match l.dropStale with
    | .error e => ⟨[], some e⟩
    | .ok l =>
      match l.advance with
      | .error e => ⟨l.tokens.toList.take l.certain, some e⟩
      | .ok (.inr tokens) => ⟨tokens.toList, none⟩
      | .ok (.inl l) => l.run fuel

/-- The tokens of a document. A byte order mark in front is passed over. -/
def Token.ofChars (cs : List Char) : Token.Stream :=
  let cs := match cs with
    | '\ufeff' :: cs => cs
    | cs => cs
  Lexer.run (cs.length + 1) { cursor := { rest := cs } }

end Semijoin.Yaml
