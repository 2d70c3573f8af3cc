import Semijoin.Logging.Entry

/-!
# The hierarchy of loggers

Loggers are known by their names, and dots in a name say what the logger lies below. Its parent is
the first logger that there is among the names looked through, from the longest on. Only what stands
in front of a dot is looked through, and from a dot the search goes on two characters earlier, so
the second of two dots in a row hides the first one.
-/

namespace Semijoin.Logging

namespace Hierarchy

/-- What stands in front of the dots of a name, the longest part first. The name and the parts are
read from the end. -/
def partsAbove : List CodePoint → List (List CodePoint)
  | [] | [_] => []
  | p :: q :: rest =>
    if p = .char '.' then (q :: rest) :: partsAbove rest else partsAbove (q :: rest)

/-- The names that the parent of a logger is looked for under. -/
def namesAbove (name : Text) : List Text :=
  (partsAbove name.points.reverse).map fun part => ⟨part.reverse⟩

theorem length_lt_of_mem_partsAbove {part name : List CodePoint} (h : part ∈ partsAbove name) :
    part.length < name.length := by
  fun_induction partsAbove name with
  | case1 | case2 => cases h
  | case3 q rest ih =>
    obtain rfl | h := List.mem_cons.mp h
    · simp
    · have := ih h
      simp only [List.length_cons]
      omega
  | case4 p q rest hp ih =>
    have := ih h
    simp only [List.length_cons] at this ⊢
    omega

/-- The parent of a logger among the loggers that there are. -/
def parent? (loggers : List Text) (name : Text) : Option Text :=
  (namesAbove name).find? (loggers.contains ·)

theorem length_lt_of_parent? {loggers : List Text} {name parent : Text}
    (h : parent? loggers name = some parent) : parent.points.length < name.points.length := by
  obtain ⟨part, hpart, rfl⟩ := List.mem_map.mp (List.mem_of_find?_eq_some h)
  simpa using length_lt_of_mem_partsAbove hpart

/-- Whether a logger is the root of the library or lies below it. -/
def isBelowRoot (loggers : List Text) (name : Text) : Bool :=
  if name = rootName then true
  else match h : parent? loggers name with
    | none => false
    | some parent =>
      have := length_lt_of_parent? h
      isBelowRoot loggers parent
termination_by name.points.length

end Hierarchy

end Semijoin.Logging
