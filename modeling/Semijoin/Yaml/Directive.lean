import Semijoin.Yaml.Basic

/-!
# Directives and tags

A tag names the kind of a node. It is written with a handle that stands for the start of its name,
or in full. Directives in front of a document give its version and what the handles stand for.
-/

namespace Semijoin.Yaml

/-- A tag as it is written; one in full has no handle. -/
structure WrittenTag where
  handle : Option String
  rest : String
deriving DecidableEq, Inhabited

/-- A directive. Those of unknown name have no effect. -/
inductive Directive where
  | version (major : Nat)
  | handle (name start : String)
  | unknown
deriving DecidableEq, Inhabited

namespace Directive

/-- Whether a space, a line break or the end comes next. -/
def atSpace : List Char → Bool
  | [] => true
  | c :: _ => c = ' ' || isBreak c

/-- The characters that stand for themselves in a tag. -/
def isTagChar (c : Char) : Bool := c.isAlphanum || "-;/?:@&=+$,_.!~*'()[]".contains c

/-- The bytes in front that are given in hexadecimal after percent signs, and the rest. -/
def takeBytes : List Char → Except Fault (List UInt8 × List Char)
  | '%' :: a :: b :: cs =>
    match Hexadecimal.digit? a, Hexadecimal.digit? b with
    | some m, some n =>
      (takeBytes cs).map fun (bytes, rest) => (UInt8.ofNat (16 * m + n) :: bytes, rest)
    | _, _ => .error .malformed
  | '%' :: _ => .error .malformed
  | cs => .ok ([], cs)

/-- The part of a tag in front and the rest. Bytes after percent signs must be text in UTF-8. Every
step leaves less to read, which is checked where a step reads bytes. -/
def takeTag (cs : List Char) : Except Fault (List Char × List Char) :=
  match cs with
  | [] => .ok ([], [])
  | c :: cs =>
    if c = '%' then do
      let (bytes, rest) ← takeBytes (c :: cs)
      match String.fromUTF8? ⟨bytes.toArray⟩ with
      | none => throw .malformed
      | some text =>
        if _h : rest.length ≤ cs.length then
          (takeTag rest).map fun (more, rest) => (text.toList ++ more, rest)
        else throw .malformed
    else if isTagChar c then (takeTag cs).map fun (more, rest) => (c :: more, rest)
    else .ok ([], c :: cs)
termination_by cs.length

/-- The part of a tag in front, which may not be missing, and the rest. -/
def tagPart (cs : List Char) : Except Fault (String × List Char) := do
  let (text, rest) ← takeTag cs
  if rest.length = cs.length then throw .malformed
  return (String.ofList text, rest)

/-- The handle in front and the rest: an exclamation mark, or a name between two of them. -/
def handlePart : List Char → Except Fault (String × List Char)
  | '!' :: cs =>
    if cs.head? = some ' ' then .ok ("!", cs)
    else
      match cs.dropWhile isNameChar with
      | '!' :: rest => .ok ("!" ++ String.ofList (cs.takeWhile isNameChar) ++ "!", rest)
      | _ => .error .malformed
  | _ => .error .malformed

/-- The tag in front and the rest. A lone exclamation mark is a tag of its own. -/
def takeWrittenTag (cs : List Char) : Except Fault (WrittenTag × List Char) := do
  let (tag, rest) ← match cs with
    | '!' :: '<' :: cs => do
      let (text, rest) ← tagPart cs
      match rest with
      | '>' :: rest => pure (WrittenTag.mk none text, rest)
      | _ => throw .malformed
    | '!' :: cs =>
      if atGap cs then pure (WrittenTag.mk none "!", cs)
      else if (cs.takeWhile fun c => c ≠ ' ' && !isBreak c).contains '!' then do
        let (name, rest) ← handlePart ('!' :: cs)
        let (text, rest) ← tagPart rest
        pure (WrittenTag.mk (some name) text, rest)
      else do
        let (text, rest) ← tagPart cs
        pure (WrittenTag.mk (some "!") text, rest)
    | _ => throw .malformed
  if atSpace rest then return (tag, rest) else throw .malformed

/-- The number in front and the rest. -/
def takeNumber (cs : List Char) : Except Fault (Nat × List Char) :=
  let ds := cs.takeWhile Char.isDigit
  if ds.isEmpty then .error .malformed
  else if Digit.maxCount < ds.length then .error (.number (.manyDigits ds.length))
  else .ok (ds.foldl (fun n c => 10 * n + (c.toNat - '0'.toNat)) 0, cs.dropWhile Char.isDigit)

def skipSpaces (cs : List Char) : List Char := cs.dropWhile (· = ' ')

/-- The version in front: two numbers with a point between them. -/
def takeVersion (cs : List Char) : Except Fault (Directive × List Char) := do
  let (major, rest) ← takeNumber (skipSpaces cs)
  match rest with
  | '.' :: rest =>
    let (_, rest) ← takeNumber rest
    if atSpace rest then return (.version major, rest) else throw .malformed
  | _ => throw .malformed

/-- A handle and what it stands for. -/
def takeHandle (cs : List Char) : Except Fault (Directive × List Char) := do
  let (name, rest) ← handlePart (skipSpaces cs)
  if rest.head? ≠ some ' ' then throw .malformed
  let (start, rest) ← tagPart (skipSpaces rest)
  if atSpace rest then return (.handle name start, rest) else throw .malformed

/-- The directive in front, after its percent sign, and the rest after the end of its line. -/
def ofChars (cs : List Char) : Except Fault (Directive × List Char) := do
  let name := cs.takeWhile isNameChar
  let rest := cs.dropWhile isNameChar
  if name.isEmpty || !atSpace rest then throw .malformed
  let (d, rest) ←
    if name = "YAML".toList then takeVersion rest
    else if name = "TAG".toList then takeHandle rest
    else pure (unknown, rest.dropWhile (!isBreak ·))
  let rest := match skipSpaces rest with
    | '#' :: rest => rest.dropWhile (!isBreak ·)
    | rest => rest
  match rest with
  | [] => return (d, [])
  | c :: rest => if isBreak c then return (d, rest) else throw .malformed

end Directive

end Semijoin.Yaml
