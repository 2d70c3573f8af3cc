import Semijoin.Rule.Basic

/-!
# Joins below projections

Moves a semi or anti join below a projection on its left input:
`Join (Project X) R` becomes `Project (Join X R)`. Such a join only keeps or drops left rows, so
the projected expressions stay valid as they are, and only the condition has to be moved.
-/

namespace Semijoin

namespace ProjectTranspose

def name : String := "SemiAntiJoinProjectTranspose"

def match? : Plan → Option Match
  | .join id kind left right condition =>
    match left with
    | .project pid input outputs =>
      if kind.isFiltering then
        some { rule := name, join := ⟨id, kind, left, right, condition⟩
               project := some ⟨pid, input, outputs⟩ }
      else none
    | _ => none
  | _ => none

def apply (m : Match) (next : Nat) : Except RuleError (Plan × Nat) := do
  m.checkRule name
  match m.project with
  | none => throw (.foreignMatch name m.rule)
  | some p =>
    let condition ← p.conditionBelow m.join.condition
    let (join, next) ← (Build.join m.join.kind p.input m.join.right condition).forRule next
    (Build.project join p.outputs).forRule next

theorem size_apply {p q : Plan} {m : Match} {next next' : Nat} (hm : match? p = some m)
    (h : apply m next = .ok (q, next')) : q.size = p.size := by
  unfold match? at hm
  split at hm <;> try contradiction
  split at hm <;> try contradiction
  split at hm <;> try contradiction
  simp only [Option.some.injEq] at hm
  subst hm
  simp only [apply, Match.checkRule, if_true, bind, Except.bind] at h
  split at h <;> try contradiction
  split at h <;> try contradiction
  rename_i hjoin
  obtain ⟨-, rfl⟩ := Build.forRule_node hjoin
  obtain ⟨-, hq⟩ := Build.forRule_node h
  simp only [Prod.mk.injEq] at hq
  simp only [hq.1, Plan.size]
  omega

end ProjectTranspose

/-- The rule that moves semi and anti joins below projections. -/
def projectTranspose : Rule where
  name := ProjectTranspose.name
  text := ProjectTranspose.name ++ "Rule()"
  match? := ProjectTranspose.match?
  apply := ProjectTranspose.apply
  size_apply := ProjectTranspose.size_apply

end Semijoin
