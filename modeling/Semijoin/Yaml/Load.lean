import Semijoin.Yaml.Collection

/-!
# Values of YAML documents

Reading the text of a document into a value. A mapping becomes a map in which a repeated key keeps
its place and takes the last value.
-/

namespace Semijoin.Yaml

/-- The number of characters in the first portion of a text, and in each one after it. -/
def firstPortion : Nat := 8192

def nextPortion : Nat := 4096

/-- The portions of a text in front of the first character that is not allowed. A portion is looked
through before anything in it is read. -/
def readable (cs : List Char) : List Char :=
  match cs.findIdx? (!isAllowed ·) with
  | none => cs
  | some i =>
    if i < firstPortion then []
    else cs.take (firstPortion + (i - firstPortion) / nextPortion * nextPortion)

/-- The value of a document. One without content is null. The document and its sections are going to
be taken apart, so a collection may well contain them. -/
def load (text : String) : Except Fault Value := do
  let cs := unifyBreaks text.toList
  let portions := readable cs
  let document ← Graph.ofTokens? (Token.ofChars portions)
  if portions.length < cs.length then throw .malformed
  match document with
  | none => return .null
  | some (g, root) => g.value 2 root

end Semijoin.Yaml
