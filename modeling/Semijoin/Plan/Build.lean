import Semijoin.Plan.Basic

/-!
# Building plans

A node is built only over inputs it is consistent with: every column it reads must exist there with
the type and at most the nullability it is read with, and every predicate and condition must be a
truth value. Building also draws the identity of the new node from a supply.
-/

namespace Semijoin

/-- The role of an expression in a node. -/
inductive ExprRole where
  | predicate
  | output
  | condition
deriving DecidableEq, Inhabited

def ExprRole.name : ExprRole → String
  | predicate => "Filter predicate"
  | output => "Project expression"
  | condition => "Join condition"

/-- Why a node is inconsistent with its inputs. -/
inductive SchemaMismatch where
  | emptyScan (relation : Text)
  | unsupportedType (type : Text)
  | notBoolean (role : ExprRole) (type : DataType) (sql : Text)
  | outOfRange (role : ExprRole) (index : Int) (width : Nat)
  | wrongType (role : ExprRole) (index : Int) (type : DataType) (field : Field)
  | wrongNullability (role : ExprRole) (field : Text)
  | aliasCount (exprs aliases : Nat)
  | emptyProject
  | noCondition (kind : JoinKind)
  | noColumn (label : Text) (width : Nat) (index : Int)
  | refused (reason : String)
deriving DecidableEq

def SchemaMismatch.message : SchemaMismatch → Text
  | emptyScan relation => "Scan of " ++ relation ++ " has no columns"
  | unsupportedType type => "Unsupported Arrow type: " ++ type
  | notBoolean role type sql => s!"{role.name} must be BOOLEAN, got {type.name}: " ++ sql
  | outOfRange role index width =>
    s!"{role.name} references column ${index} but its input has {width} columns"
  | wrongType role index type field =>
    s!"{role.name} reads ${index} as {type.name}, input column " ++ field.name ++
      s!" is {field.type.name}"
  | wrongNullability role field =>
    s!"{role.name} treats nullable column " ++ field ++ " as NOT NULL"
  | aliasCount exprs aliases => s!"Project has {exprs} expressions but {aliases} aliases"
  | emptyProject => "Project must produce at least one column"
  | noCondition kind => s!"{kind.name} join requires a condition"
  | noColumn label width index =>
    label ++ s!" has {width} columns, no column at position {index}"
  | refused reason => reason

/-- Why a node was not built: it is inconsistent with its inputs, or it is, but the message would
show an integer that is too long to be written. -/
inductive BuildError where
  | mismatch (cause : SchemaMismatch)
  | tooLong
deriving DecidableEq

def BuildError.message : BuildError → Text
  | mismatch cause => cause.message
  | tooLong => Value.tooLongMessage

/-- The error of a mismatch whose message can be written or not. -/
def SchemaMismatch.error (cause : SchemaMismatch) (isWritable : Bool) : BuildError :=
  if isWritable then .mismatch cause else .tooLong

/-- The element at an integer position. -/
def atPosition? {α : Type} (xs : List α) (i : Int) : Option α :=
  if 0 ≤ i then xs[i.toNat]? else none

/-- Checks one column reference against the schema it is read from. -/
def checkColumn (role : ExprRole) (fields : List Field) (c : Column) : Except BuildError Unit :=
  match atPosition? fields c.index with
  | none =>
    .error ((SchemaMismatch.outOfRange role c.index fields.length).error (Value.isShort c.index))
  | some field =>
    if c.type ≠ field.type then .error (.mismatch (.wrongType role c.index c.type field))
    else if field.nullable ∧ ¬ c.nullable then
      .error (.mismatch (.wrongNullability role field.name))
    else .ok ()

/-- Checks the column references of an expression from left to right. -/
def checkColumns (role : ExprRole) (fields : List Field) (e : Expr) : Except BuildError Unit :=
  e.columns.forM (checkColumn role fields)

/-- Checks that an expression is a truth value. -/
def checkBoolean (role : ExprRole) (e : Expr) : Except BuildError Unit :=
  if e.type = .boolean then .ok ()
  else
    match e.sql? with
    | some sql => .error (.mismatch (.notBoolean role e.type sql))
    | none => .error .tooLong

/-- Checks a scan. -/
def checkScan (relation : Text) (fields : List Field) : Except BuildError Unit :=
  if fields.isEmpty then .error (.mismatch (.emptyScan relation)) else .ok ()

/-- Checks a filter: a truth value over the columns of the input. -/
def checkFilter (input : Plan) (predicate : Expr) : Except BuildError Unit := do
  checkBoolean .predicate predicate
  checkColumns .predicate input.schema predicate

/-- Checks a projection: at least one output, each over the columns of the input. -/
def checkProject (input : Plan) (outputs : List Output) : Except BuildError Unit := do
  if outputs.isEmpty then throw (.mismatch .emptyProject)
  outputs.forM fun o => checkColumns .output input.schema o.expr

/-- Checks a join: a truth value over the left columns followed by the right ones. Only an inner
join does without a condition. -/
def checkJoin (kind : JoinKind) (left right : Plan) (condition : Option Expr) :
    Except BuildError Unit := do
  match condition with
  | none => if kind ≠ .inner then throw (.mismatch (.noCondition kind))
  | some e =>
    checkBoolean .condition e
    checkColumns .condition (left.schema ++ right.schema) e

/-- The check that a node goes through when it is built. -/
def Plan.check : Plan → Except BuildError Unit
  | scan _ relation fields => checkScan relation fields
  | filter _ input predicate => checkFilter input predicate
  | project _ input outputs => checkProject input outputs
  | join _ kind left right condition => checkJoin kind left right condition
  | foreign .. => .ok ()

/-- A computation that builds nodes: it draws identities from a supply and may refuse a node. -/
abbrev Build := StateT Nat (Except BuildError)

namespace Build

/-- The node under the next identity, once it has passed its check. -/
def node (make : Nat → Plan) : Build Plan := fun next =>
  (make next).check.map fun _ => (make next, next + 1)

def scan (relation : Text) (fields : List Field) : Build Plan :=
  node fun id => .scan id relation fields

def filter (input : Plan) (predicate : Expr) : Build Plan :=
  node fun id => .filter id input predicate

def project (input : Plan) (outputs : List Output) : Build Plan :=
  node fun id => .project id input outputs

/-- A projection from expressions and names given apart. -/
def projectAs (input : Plan) (exprs : List Expr) (aliases : List Text) : Build Plan := do
  if exprs.length ≠ aliases.length then
    throw (.mismatch (.aliasCount exprs.length aliases.length))
  project input (exprs.zipWith Output.mk aliases)

def join (kind : JoinKind) (left right : Plan) (condition : Option Expr) : Build Plan :=
  node fun id => .join id kind left right condition

def foreign (kind : ForeignKind) (children : List Plan) : Build Plan :=
  node fun id => .foreign id kind children

/-- A node that was built passed its check and has the identity that was next. -/
theorem node_eq_ok {make : Nat → Plan} {next next' : Nat} {p : Plan}
    (h : node make next = .ok (p, next')) :
    (make next).check = .ok () ∧ p = make next ∧ next' = next + 1 := by
  unfold node at h
  cases hcheck : (make next).check with
  | error e => simp [hcheck, Except.map] at h
  | ok u => simpa [hcheck, Except.map, eq_comm] using h

end Build

/-- Why a node cannot take other children. The label of a node can hold an integer that is too long
to be written, and a foreign node has reasons of its own. -/
inductive ChildFault where
  | count
  | noChild (label : Text) (index : Int)
  | tooLong
  | mismatch (cause : SchemaMismatch)
  | foreign (fault : ForeignFault)

def BuildError.childFault : BuildError → ChildFault
  | mismatch cause => .mismatch cause
  | tooLong => .tooLong

namespace Plan

/-- A reference to an output column. -/
def column (p : Plan) (index : Int) : Except BuildError Column :=
  match atPosition? p.schema index with
  | some field => .ok ⟨index, field.type, field.nullable, some field.name⟩
  | none => .error ((SchemaMismatch.noColumn p.label p.schema.length index).error
      (p.hasWritableLabel && Value.isShort index))

/-- The node under another identity and over other children. -/
def atop (id : Nat) (p : Plan) (children : List Plan) : Plan :=
  match p, children with
  | filter _ _ predicate, [input] => filter id input predicate
  | project _ _ outputs, [input] => project id input outputs
  | join _ kind _ _ condition, [left, right] => join id kind left right condition
  | foreign _ kind _, children => foreign id kind children
  | p, _ => p

/-- Whether a node can be built over these children as far as it sees to that itself. All but
foreign nodes insist on the number of children that they have. -/
def accepts (p : Plan) (children : List Plan) : Except ChildFault Unit :=
  match p with
  | foreign _ kind _ => (kind.rebuild (children.map schema)).mapError .foreign
  | p => if children.length = p.children.length then .ok () else .error .count

/-- The node over other children. A scan, which has none, is itself; any other node is new. -/
def withChildren (p : Plan) (children : List Plan) (next : Nat) :
    Except ChildFault (Plan × Nat) := do
  p.accepts children
  match p with
  | scan .. => return (p, next)
  | p => (Build.node (fun id => p.atop id children) next).mapError BuildError.childFault

/-- The node with one child exchanged. -/
def replaceChild (p : Plan) (index : Int) (child : Plan) (next : Nat) :
    Except ChildFault (Plan × Nat) :=
  if 0 ≤ index ∧ index < p.children.length then
    p.withChildren (p.children.set index.toNat child) next
  else if p.hasWritableLabel && Value.isShort index then .error (.noChild p.label index)
  else .error .tooLong

end Plan

def ChildFault.message : ChildFault → Text
  | count => ""
  | noChild label index => label ++ s!" has no child at position {index}"
  | tooLong => Value.tooLongMessage
  | mismatch cause => cause.message
  | foreign _ => ""

end Semijoin
