import Semijoin.Rule.Basic

/-!
# Joins below filters

Pulls a filter on the left input of a semi or anti join above the join:
`Join (Filter L) R` becomes `Filter (Join L R)`. A projection that lies directly above the filter
is looked through and put back on top: `Join (Project (Filter L)) R` becomes
`Project (Filter (Join L R))`. The output of the join has the columns of `L` at their positions, so
the predicate stays as it is.
-/

namespace Semijoin

namespace FilterTranspose

def name : String := "SemiAntiJoinFilterTranspose"

/-- Whether a predicate reads columns of the given input only. -/
def isLegal (predicate : Expr) (input : Plan) : Bool := predicate.readsOnly input.positions

/-- The filter at the root of a plan or directly below the projection there. -/
def unwrap? : Plan → Option (Option ProjectNode × FilterNode)
  | .filter id input predicate => some (none, ⟨id, input, predicate⟩)
  | .project pid (.filter id input predicate) outputs =>
    some (some ⟨pid, .filter id input predicate, outputs⟩, ⟨id, input, predicate⟩)
  | _ => none

def match? : Plan → Option Match
  | .join id kind left right condition =>
    if kind.isFiltering then
      match unwrap? left with
      | none => none
      | some (project, filter) =>
        if isLegal filter.predicate filter.input then
          some {
            rule := name
            join := ⟨id, kind, left, right, condition⟩
            project
            filter := some filter
            nullSensitive := kind = .anti && filter.predicate.mayBeNull }
        else none
    else none
  | _ => none

def apply (m : Match) (next : Nat) : Except RuleError (Plan × Nat) := do
  m.checkRule name
  match m.filter, m.project with
  | none, _ => throw (.foreignMatch name m.rule)
  | some f, none =>
    let (join, next) ←
      (Build.join m.join.kind f.input m.join.right m.join.condition).forRule next
    (Build.filter join f.predicate).forRule next
  | some f, some p =>
    let condition ← p.conditionBelow m.join.condition
    let (join, next) ← (Build.join m.join.kind f.input m.join.right condition).forRule next
    let (filter, next) ← (Build.filter join f.predicate).forRule next
    (Build.project filter p.outputs).forRule next

theorem size_apply {p q : Plan} {m : Match} {next next' : Nat} (hm : match? p = some m)
    (h : apply m next = .ok (q, next')) : q.size = p.size := by
  unfold match? at hm
  split at hm <;> try contradiction
  split at hm <;> try contradiction
  split at hm <;> try contradiction
  rename_i hunwrap
  split at hm <;> try contradiction
  simp only [Option.some.injEq] at hm
  subst hm
  unfold unwrap? at hunwrap
  split at hunwrap <;> try contradiction
  · simp only [Option.some.injEq, Prod.mk.injEq] at hunwrap
    obtain ⟨rfl, rfl⟩ := hunwrap
    simp only [apply, Match.checkRule, if_true, bind, Except.bind] at h
    split at h <;> try contradiction
    rename_i hjoin
    obtain ⟨-, rfl⟩ := Build.forRule_node hjoin
    obtain ⟨-, hq⟩ := Build.forRule_node h
    simp only [Prod.mk.injEq] at hq
    simp only [hq.1, Plan.size]
    omega
  · simp only [Option.some.injEq, Prod.mk.injEq] at hunwrap
    obtain ⟨rfl, rfl⟩ := hunwrap
    simp only [apply, Match.checkRule, if_true, bind, Except.bind] at h
    split at h <;> try contradiction
    split at h <;> try contradiction
    rename_i hjoin
    obtain ⟨-, rfl⟩ := Build.forRule_node hjoin
    split at h <;> try contradiction
    rename_i hfilter
    obtain ⟨-, rfl⟩ := Build.forRule_node hfilter
    obtain ⟨-, hq⟩ := Build.forRule_node h
    simp only [Prod.mk.injEq] at hq
    simp only [hq.1, Plan.size]
    omega

end FilterTranspose

/-- The rule that moves semi and anti joins below filters. -/
def filterTranspose : Rule where
  name := FilterTranspose.name
  text := FilterTranspose.name ++ "Rule()"
  match? := FilterTranspose.match?
  apply := FilterTranspose.apply
  size_apply := FilterTranspose.size_apply

end Semijoin
