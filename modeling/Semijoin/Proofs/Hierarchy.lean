import Mathlib.Data.List.Basic
import Semijoin.Logging.Hierarchy

/-!
# Which loggers lead up to the root

Going from a logger to its parent and on, one comes to the root of the library as soon as it is
there, whatever other loggers there are, unless the name has two dots after the root. Those hide the
root: such a logger leads up to it only by way of other loggers, which need not be there.
-/

namespace Semijoin.Logging

namespace Hierarchy

variable {loggers : List Text} {name : Text}

/-- The character between the parts of a name. -/
abbrev dot : CodePoint := .char '.'

theorem partsAbove_eq_nil {ps : List CodePoint} (h : dot ∉ ps) : partsAbove ps = [] := by
  fun_induction partsAbove ps with
  | case1 | case2 => rfl
  | case3 q rest _ => simp at h
  | case4 p q rest _ ih => exact ih (by simp_all)

/-- A name read from the end that goes on above a root, with a single dot in between. -/
def GoesOn (root ps : List CodePoint) : Prop :=
  ∃ tail, tail.getLast? ≠ some dot ∧ ps = tail ++ dot :: root

/-- The search from a name that goes on above a root comes upon the root, and on the way only upon
names that do the same. -/
theorem partsAbove_of_goesOn {root : List CodePoint} (hroot : dot ∉ root) (hne : root ≠ []) :
    ∀ tail : List CodePoint, tail.getLast? ≠ some dot →
      root ∈ partsAbove (tail ++ dot :: root) ∧
        ∀ part ∈ partsAbove (tail ++ dot :: root), part = root ∨ GoesOn root part
  | [], _ => by
    obtain ⟨q, rest, rfl⟩ := List.exists_cons_of_ne_nil hne
    have hrest : dot ∉ rest := fun h => hroot (List.mem_cons_of_mem _ h)
    simp [partsAbove, partsAbove_eq_nil hrest]
  | [p], h => by
    have hp : p ≠ dot := by simpa using h
    have ih := partsAbove_of_goesOn hroot hne [] (by simp)
    simpa [partsAbove, hp] using ih
  | p :: q :: tail, h => by
    have hq : (q :: tail).getLast? ≠ some dot := by simpa using h
    by_cases hp : p = dot
    · have htail : tail.getLast? ≠ some dot := by
        cases tail with
        | nil => simp
        | cons => simpa using hq
      obtain ⟨hmem, hparts⟩ := partsAbove_of_goesOn hroot hne tail htail
      simp only [List.cons_append, partsAbove, hp, if_true, List.mem_cons, forall_eq_or_imp]
      exact ⟨.inr hmem, .inr ⟨q :: tail, hq, rfl⟩, hparts⟩
    · obtain ⟨hmem, hparts⟩ := partsAbove_of_goesOn hroot hne (q :: tail) hq
      simp only [List.cons_append, partsAbove, hp, if_false] at hmem hparts ⊢
      exact ⟨hmem, hparts⟩

/-- The root, or a name below it with a single dot after the root. -/
def Nested (name : Text) : Prop :=
  name = rootName ∨ GoesOn (Text.ofString rootName).points.reverse name.points.reverse

/-- If the root is there, a name below it has a parent, which is the root or a name below it. -/
theorem exists_parent?_of_nested (hroot : (rootName : Text) ∈ loggers) (h : Nested name)
    (hne : name ≠ rootName) : ∃ parent, parent? loggers name = some parent ∧ Nested parent := by
  obtain ⟨tail, htail, hname⟩ := h.resolve_left hne
  have hdots : dot ∉ (Text.ofString rootName).points.reverse := by decide
  obtain ⟨hmem, hparts⟩ := partsAbove_of_goesOn hdots (by decide) tail htail
  rw [← hname] at hmem hparts
  have hfound : (parent? loggers name).isSome := by
    rw [parent?, List.find?_isSome]
    exact ⟨rootName, List.mem_map.mpr ⟨_, hmem, by simp⟩, by simpa using hroot⟩
  obtain ⟨parent, hparent⟩ := Option.isSome_iff_exists.mp hfound
  refine ⟨parent, hparent, ?_⟩
  obtain ⟨part, hpart, rfl⟩ := List.mem_map.mp (List.mem_of_find?_eq_some hparent)
  obtain rfl | hgoes := hparts part hpart
  · exact .inl (by simp)
  · exact .inr (by simpa using hgoes)

theorem isBelowRoot_of_nested (hroot : (rootName : Text) ∈ loggers) (h : Nested name) :
    isBelowRoot loggers name := by
  fun_induction isBelowRoot loggers name with
  | case1 => rfl
  | case2 name hne hnone =>
    obtain ⟨parent, hparent, -⟩ := exists_parent?_of_nested hroot h hne
    simp [hparent] at hnone
  | case3 name hne parent hsome _ ih =>
    obtain ⟨parent', hparent, hnested⟩ := exists_parent?_of_nested hroot h hne
    obtain rfl : parent' = parent := Option.some.inj (hparent.symm.trans hsome)
    exact ih hnested

theorem isBelowRoot_of_parent?_eq_none (hne : name ≠ rootName) (h : parent? loggers name = none) :
    isBelowRoot loggers name = false := by
  rw [isBelowRoot, if_neg hne]
  split
  · rfl
  · next parent hparent => simp [h] at hparent

theorem exists_points_loggerName (name : Text) : loggerName name = rootName ∨
    ∃ rest, (loggerName name).points = (Text.ofString rootName).points ++ dot :: rest := by
  unfold loggerName
  split
  · next h =>
    obtain h | h := h
    · exact .inl h
    · obtain ⟨rest, hrest⟩ := List.isPrefixOf_iff_prefix.mp h
      exact .inr ⟨rest, by rw [← hrest]; rfl⟩
  · exact .inr ⟨name.points, rfl⟩

/-- What the names start with that go on after the root with two dots. -/
def twoDots : Text := rootName ++ ".."

/-- The full name of a logger is nested, unless it has two dots after the root. -/
theorem nested_loggerName {name : Text} (h : ¬ (loggerName name).startsWith twoDots) :
    Nested (loggerName name) := by
  obtain hroot | ⟨rest, hrest⟩ := exists_points_loggerName name
  · exact .inl hroot
  · refine .inr ⟨rest.reverse, fun hdot => h ?_, by simp [hrest]⟩
    rw [List.getLast?_reverse, List.head?_eq_some_iff] at hdot
    obtain ⟨rest, rfl⟩ := hdot
    exact List.isPrefixOf_iff_prefix.mpr ⟨rest, by rw [hrest]; rfl⟩

/-- The search from a name with a dot right above the root does not come upon the root before it has
come upon the two dots, if it looks for both. -/
theorem find?_partsAbove_ne {root : List CodePoint} (hroot : dot ∉ root)
    {p : List CodePoint → Bool} (hdots : p (dot :: dot :: root)) :
    ∀ tail : List CodePoint, tail.getLast? = some dot →
      (partsAbove (tail ++ dot :: root)).find? p ≠ some root
  | [], h => by cases h
  | [q], h => by
    obtain rfl : q = dot := by simpa using h
    cases hp : p (dot :: root) <;> simp [partsAbove, partsAbove_eq_nil hroot, hp]
  | q :: q' :: tail, h => by
    have hq' : (q' :: tail).getLast? = some dot := by simpa using h
    by_cases hq : q = dot
    · cases hp : p (q' :: (tail ++ dot :: root)) with
      | true =>
        have hlength : q' :: (tail ++ dot :: root) ≠ root := fun heq => by
          have := congrArg List.length heq
          simp only [List.length_cons, List.length_append] at this
          omega
        simpa [partsAbove, hq, hp] using hlength
      | false =>
        cases tail with
        | nil =>
          obtain rfl : q' = dot := by simpa using hq'
          exact absurd hdots (by simpa using hp)
        | cons first tail =>
          have htail := find?_partsAbove_ne hroot hdots (first :: tail) (by simpa using hq')
          rw [List.cons_append] at hp htail
          simpa [partsAbove, hq, hp] using htail
    · simpa [partsAbove, hq] using find?_partsAbove_ne hroot hdots (q' :: tail) hq'

theorem parent?_ne_root_of_twoDots (hdots : twoDots ∈ loggers) (h : name.startsWith twoDots) :
    parent? loggers name ≠ some (rootName : Text) := by
  obtain ⟨rest, hrest⟩ := List.isPrefixOf_iff_prefix.mp h
  have hname : name.points.reverse =
      (rest.reverse ++ [dot]) ++ dot :: (Text.ofString rootName).points.reverse := by
    rw [← hrest, List.reverse_append]
    exact (List.append_assoc _ [dot] _).symm
  have hroot : dot ∉ (Text.ofString rootName).points.reverse := by decide
  have hcontains : loggers.contains twoDots := by simpa using hdots
  have hfind := find?_partsAbove_ne (p := fun part => loggers.contains ⟨part.reverse⟩) hroot
    hcontains (rest.reverse ++ [dot]) (by simp)
  intro hparent
  rw [parent?, namesAbove, List.find?_map, hname] at hparent
  obtain ⟨part, hpart, heq⟩ := Option.map_eq_some_iff.mp hparent
  have hreverse : part = (Text.ofString rootName).points.reverse := by
    rw [← List.reverse_eq_iff]
    exact congrArg Text.points heq
  exact hfind (hreverse ▸ hpart)

/-- If all other loggers go on after the root with two dots, and one ends there, then none of them
leads up to the root. -/
theorem not_isBelowRoot_of_twoDots (hdots : twoDots ∈ loggers)
    (hloggers : ∀ l ∈ loggers, l = rootName ∨ l.startsWith twoDots) (h : name.startsWith twoDots) :
    isBelowRoot loggers name = false := by
  fun_induction isBelowRoot loggers name with
  | case1 => exact absurd h (by decide)
  | case2 => rfl
  | case3 name hne parent hsome _ ih =>
    have hmem : parent ∈ loggers := by simpa using List.find?_some hsome
    refine ih ((hloggers parent hmem).resolve_left fun hroot => ?_)
    exact parent?_ne_root_of_twoDots hdots h (hroot ▸ hsome)

end Hierarchy

end Semijoin.Logging
