import Mathlib.Data.List.Forall2
import Semijoin.Plan.Explain
import Semijoin.Proofs.Built

/-!
# Walking an explained plan

A plan is explained in two ways, as indented lines and as a document with an object for each node.
Both are the same: rendering the objects of the document from the root on, each before those below
it, gives the lines. What the lines leave out, the columns of every node, is in the document, whose
objects stand to each other as the nodes of the plan do.
-/

namespace Semijoin.Plan

namespace Document

/-- The line that shows an object at a depth: its kind, its detail unless that is empty, and its
hints as `hints=[name=value, ...]` if it has any. -/
def line (depth : Nat) : Document → Text
  | node kind detail _ hints _ =>
    let detail : Text := if detail.isEmpty then "" else " " ++ detail
    let pairs : List Text := hints.map fun (name, value) => name ++ "=" ++ value.plain
    let hinted : Text := if hints.isEmpty then "" else " hints=[" ++ Text.join ", " pairs ++ "]"
    indent depth ++ (kind ++ detail ++ hinted)

mutual

/-- The lines of a document whose root is at a depth, each object before those below it. -/
def walk (depth : Nat) : Document → List Text
  | node kind detail schema hints children =>
    line depth (node kind detail schema hints children) :: walkList (depth + 1) children

def walkList (depth : Nat) : List Document → List Text
  | [] => []
  | d :: ds => d.walk depth ++ walkList depth ds

end

/-- Whether the objects of a document list the columns of the nodes of a plan, and have below them
an object for each child in the order of the children. -/
inductive Lists : Document → Plan → Prop where
  | node {kind : String} {detail : Text} {hints : List (String × Value)}
      {children : List Document} {p : Plan} (hchildren : List.Forall₂ Lists children p.children) :
      Lists (node kind detail p.columnNames hints children) p

end Document

variable (hints : Plan → Option HintRecord)

theorem walkList_map {ps : List Plan} {depth : Nat}
    (h : ∀ p ∈ ps, (p.document hints).walk depth = p.lines hints depth) :
    Document.walkList depth (ps.map (document hints)) = ps.flatMap (lines hints depth) := by
  induction ps with
  | nil => rfl
  | cons p ps ih =>
    rw [List.map_cons, Document.walkList, h p (by simp), ih fun q hq => h q (by simp [hq])]
    rfl

theorem walk_document (p : Plan) (depth : Nat) :
    (p.document hints).walk depth = p.lines hints depth := by
  induction p using induction_children generalizing depth with
  | h p ih =>
    have hbelow := walkList_map hints fun c hc => ih c hc (depth + 1)
    rw [document_eq, Document.walk, hbelow, lines_eq]
    rfl

theorem document_lists (p : Plan) : (p.document hints).Lists p := by
  induction p using induction_children with
  | h p ih =>
    rw [document_eq]
    exact .node (List.forall₂_map_left_iff.mpr (List.forall₂_same.mpr ih))

/-- Walking the document of a plan gives the lines of the plan, and there is none if there are no
lines. The document lists the columns of every node, whatever hints the nodes have. -/
theorem document_walks_as_lines (p : Plan) :
    (p.document? hints).map (Document.walk 0) = p.lines? hints ∧
      ∀ d, p.document? hints = some d → d.Lists p := by
  unfold document? lines?
  split
  · refine ⟨congrArg some (walk_document hints p 0), ?_⟩
    rintro _ ⟨⟩
    exact document_lists hints p
  · exact ⟨rfl, fun _ hd => nomatch hd⟩

theorem openOrders_walk :
    ∃ d, openOrders.document? (fun _ => none) = some d ∧ d.Lists openOrders ∧
      openOrders.lines? (fun _ => none) = some (d.walk 0) := by
  obtain ⟨hwalk, hlists⟩ := document_walks_as_lines (fun _ => none) openOrders
  have hd : openOrders.document? (fun _ => none) = some (openOrders.document fun _ => none) :=
    if_pos (by decide +kernel)
  rw [hd] at hwalk
  exact ⟨_, hd, hlists _ hd, hwalk.symm⟩

end Semijoin.Plan
