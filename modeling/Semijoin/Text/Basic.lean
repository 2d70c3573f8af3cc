/-!
# Text of code points

Text from outside can hold surrogates, which are code points but no characters. A `Text` is a
sequence of code points; text of characters alone is a `String` and counts as a `Text` as it is.
-/

namespace Semijoin

/-- A code point: a character, or one of the 2048 surrogates from U+D800 on. -/
inductive CodePoint where
  | char (c : Char)
  | surrogate (index : Fin 2048)
deriving DecidableEq, Inhabited

namespace CodePoint

/-- The number of a code point. -/
def code : CodePoint → Nat
  | char c => c.toNat
  | surrogate i => 0xd800 + i.val

/-- The code point of a number, if it is not beyond the last one. -/
def ofNat? (n : Nat) : Option CodePoint :=
  if 0xd800 ≤ n ∧ n < 0xe000 then some (surrogate (Fin.ofNat 2048 (n - 0xd800)))
  else if n < 0x110000 then some (char (Char.ofNat n))
  else none

/-- The character of a code point; a surrogate is replaced. -/
def toChar : CodePoint → Char
  | char c => c
  | surrogate _ => '\ufffd'

end CodePoint

/-- A sequence of code points. -/
structure Text where
  points : List CodePoint
deriving DecidableEq, Inhabited

namespace Text

def ofChars (cs : List Char) : Text := ⟨cs.map .char⟩

def ofString (s : String) : Text := ofChars s.toList

instance : Coe String Text := ⟨ofString⟩

/-- The characters of a text; surrogates are replaced. -/
def toChars (t : Text) : List Char := t.points.map CodePoint.toChar

/-- A text as a string; surrogates are replaced. -/
def toString (t : Text) : String := String.ofList t.toChars

/-- A text as a string, unless it has surrogates. -/
def string? (t : Text) : Option String :=
  let s := t.toString
  if ofString s = t then some s else none

instance : Append Text := ⟨fun s t => ⟨s.points ++ t.points⟩⟩

def isEmpty (t : Text) : Bool := t.points.isEmpty

/-- Whether a text ends with a line break. -/
def endsLine (t : Text) : Bool := t.points.getLast? = some (.char '\n')

/-- Whether a text starts with another one. -/
def startsWith (t start : Text) : Bool := start.points.isPrefixOf t.points

/-- The texts one after the other, with a separator between them. -/
def join (separator : Text) : List Text → Text
  | [] => ⟨[]⟩
  | [t] => t
  | t :: ts => t ++ separator ++ join separator ts

/-- The parts of a text between the occurrences of a character. -/
def split (separator : Char) (t : Text) : List Text :=
  t.points.foldr (fun p parts => match parts with
    | [] => [⟨[p]⟩]
    | part :: parts =>
      if p = .char separator then ⟨[]⟩ :: part :: parts else ⟨p :: part.points⟩ :: parts) [⟨[]⟩]

/-- Whether one sequence of code points comes before another, or is the same. -/
def lePoints : List CodePoint → List CodePoint → Bool
  | [], _ => true
  | _ :: _, [] => false
  | p :: ps, q :: qs => p.code < q.code || (p.code = q.code && lePoints ps qs)

/-- The order of texts by the numbers of their code points. -/
def le (s t : Text) : Bool := lePoints s.points t.points

theorem toChars_ofChars (cs : List Char) : (ofChars cs).toChars = cs := by
  rw [toChars, ofChars, List.map_map]
  exact List.map_id cs

/-- Nothing is replaced in a text of characters alone. -/
theorem toString_ofString (s : String) : (ofString s).toString = s := by
  rw [toString, ofString, toChars_ofChars, String.ofList_toList]

theorem ofString_of_string? {t : Text} {s : String} (h : t.string? = some s) : ofString s = t := by
  unfold string? at h
  dsimp only at h
  split at h
  · next heq =>
    obtain rfl := Option.some.inj h
    exact heq
  · cases h

end Text

end Semijoin
