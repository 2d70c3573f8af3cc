import Semijoin.Yaml.Basic

/-!
# Quoted scalars

A quoted scalar runs to the next quote of its kind. A line break inside it counts as a space, and
of several line breaks in a row the first is dropped; blanks around them are dropped too. Between
single quotes a quote is written twice; between double quotes a backslash starts an escape.
-/

namespace Semijoin.Yaml.Quoted

/-- A text that has been read and what follows it. -/
abbrev Scanned := List CodePoint × List Char

/-- The breaks of the empty lines in front, and the rest from the first character that is neither
blank nor break. A marker between documents may not start one of the lines. -/
def emptyLines (lineStart : Bool) : List Char → Except Fault Scanned
  | [] => .ok ([], [])
  | c :: cs =>
    if lineStart && atMarker (c :: cs) then .error .malformed
    else if isBlank c then emptyLines false cs
    else if isBreak c then
      (emptyLines true cs).map fun (breaks, rest) => (.char (breakText c) :: breaks, rest)
    else .ok ([], c :: cs)

/-- What blanks and line breaks in front count as, and the rest. -/
def gap (cs : List Char) : Except Fault Scanned :=
  let blanks := cs.takeWhile isBlank
  match cs.dropWhile isBlank with
  | [] => .error .malformed
  | c :: cs =>
    if isBreak c then
      (emptyLines true cs).map fun (breaks, rest) =>
        if breakText c ≠ '\n' then (.char c :: breaks, rest)
        else if breaks = [] then ([.char ' '], rest)
        else (breaks, rest)
    else .ok (blanks.map .char, c :: cs)

/-- The character that an escape of one letter stands for. -/
def shortEscape : Char → Option Char
  | '0' => some '\x00'
  | 'a' => some '\x07'
  | 'b' => some '\x08'
  | 't' | '\t' => some '\t'
  | 'n' => some '\n'
  | 'v' => some '\x0b'
  | 'f' => some '\x0c'
  | 'r' => some '\r'
  | 'e' => some '\x1b'
  | 'N' => some '\x85'
  | '_' => some '\xa0'
  | 'L' => some '\u2028'
  | 'P' => some '\u2029'
  | ' ' => some ' '
  | '"' => some '"'
  | '\\' => some '\\'
  | '/' => some '/'
  | _ => none

/-- The number of hexadecimal digits after a letter that announces a code point. -/
def escapeWidth : Char → Option Nat
  | 'x' => some 2
  | 'u' => some 4
  | 'U' => some 8
  | _ => none

/-- The code point of a number. -/
def pointAt (code : Nat) : Except Fault CodePoint :=
  match CodePoint.ofNat? code with
  | some p => .ok p
  | none => .error (if code < 0x80000000 then .codePoint else .hugeCodePoint)

/-- The code point that a backslash and what follows it stand for, if it is not a line break. -/
def escape : List Char → Except Fault (CodePoint × List Char)
  | [] => .error .malformed
  | c :: cs =>
    match shortEscape c, escapeWidth c with
    | some c, _ => .ok (.char c, cs)
    | none, none => .error .malformed
    | none, some width =>
      match (cs.take width).mapM Hexadecimal.digit? with
      | none => .error .malformed
      | some digits =>
        if digits.length < width then .error .malformed
        else (pointAt (digits.foldl (16 * · + ·) 0)).map (·, cs.drop width)

/-- The text up to the closing quote. Every step leaves less to read, which is checked where a step
reads more than one character. -/
def body (quote : Char) (cs : List Char) : Except Fault Scanned :=
  match cs with
  | [] => .error .malformed
  | c :: cs =>
    let next (text : List CodePoint) (rest : List Char) : Except Fault Scanned :=
      if _h : rest.length ≤ cs.length then
        (body quote rest).map fun (more, rest) => (text ++ more, rest)
      else .error .malformed
    if c = quote then
      match quote, cs with
      | '\'', '\'' :: rest => next [.char '\''] rest
      | _, _ => .ok ([], cs)
    else if isBlank c || isBreak c then do
      let (text, rest) ← gap (c :: cs)
      next text rest
    else if quote = '"' ∧ c = '\\' then
      match cs with
      | [] => .error .malformed
      | b :: rest =>
        if isBreak b then do
          let (text, rest) ← emptyLines true rest
          next text rest
        else do
          let (p, rest) ← escape (b :: rest)
          next [p] rest
    else (body quote cs).map fun (more, rest) => (.char c :: more, rest)
termination_by cs.length

end Semijoin.Yaml.Quoted
