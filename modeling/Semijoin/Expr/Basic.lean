import Semijoin.Value.Display

/-!
# Expressions

Scalar expressions over the columns of a plan node, their types and their texts, and the equality
that decides whether a substitution changed anything. Names of columns are for display only, so
equality ignores them.
-/

namespace Semijoin

inductive DataType where
  | integer
  | bigint
  | float
  | double
  | decimal
  | varchar
  | text
  | boolean
  | date
  | timestamp
  | null
deriving DecidableEq, Inhabited

namespace DataType

def name : DataType → String
  | integer => "INTEGER"
  | bigint => "BIGINT"
  | float => "FLOAT"
  | double => "DOUBLE"
  | decimal => "DECIMAL"
  | varchar => "VARCHAR"
  | text => "TEXT"
  | boolean => "BOOLEAN"
  | date => "DATE"
  | timestamp => "TIMESTAMP"
  | null => "NULL"

def all : List DataType :=
  [integer, bigint, float, double, decimal, varchar, text, boolean, date, timestamp, null]

def ofName? (s : String) : Option DataType := all.find? (·.name == s)

end DataType

inductive BinaryOperator where
  | add
  | subtract
  | multiply
  | divide
  | modulo
  | eq
  | ne
  | lt
  | le
  | gt
  | ge
  | and
  | or
  | concat
  | like
deriving DecidableEq, Inhabited

namespace BinaryOperator

def symbol : BinaryOperator → String
  | add => "+"
  | subtract => "-"
  | multiply => "*"
  | divide => "/"
  | modulo => "%"
  | eq => "="
  | ne => "!="
  | lt => "<"
  | le => "<="
  | gt => ">"
  | ge => ">="
  | and => "AND"
  | or => "OR"
  | concat => "||"
  | like => "LIKE"

def all : List BinaryOperator :=
  [add, subtract, multiply, divide, modulo, eq, ne, lt, le, gt, ge, and, or, concat, like]

def ofSymbol? (s : String) : Option BinaryOperator := all.find? (·.symbol == s)

/-- Whether the result is a truth value whatever the operands are. -/
def isBoolean : BinaryOperator → Bool
  | eq | ne | lt | le | gt | ge | like | and | or => true
  | _ => false

/-- Whether the result can be null for operands that are not: a zero divisor yields null. -/
def isPartial : BinaryOperator → Bool
  | divide | modulo => true
  | _ => false

end BinaryOperator

inductive UnaryOperator where
  | not
  | negate
  | isNull
  | isNotNull
deriving DecidableEq, Inhabited

namespace UnaryOperator

def symbol : UnaryOperator → String
  | not => "NOT"
  | negate => "-"
  | isNull => "IS NULL"
  | isNotNull => "IS NOT NULL"

def all : List UnaryOperator := [not, negate, isNull, isNotNull]

def ofSymbol? (s : String) : Option UnaryOperator := all.find? (·.symbol == s)

/-- Whether the operator tests its operand for null, and so never yields null itself. -/
def isNullTest : UnaryOperator → Bool
  | isNull | isNotNull => true
  | _ => false

end UnaryOperator

/-- A reference to a column by its position in the schema the expression is evaluated over. A
negative position can arise while positions are shifted; no plan node accepts one. -/
structure Column where
  index : Int
  type : DataType
  nullable : Bool := true
  name : Option Text := none
deriving DecidableEq, Inhabited

/-- A literal. Its identity tells apart literals whose values differ from themselves. -/
structure Literal where
  id : Nat
  value : Value
  type : DataType
deriving Inhabited

/-- An expression of a kind this library knows nothing about: only its texts and its type. -/
structure ForeignExpr where
  id : Nat
  sql : Text
  outline : Text
  type : DataType
deriving DecidableEq, Inhabited

inductive Expr where
  | col (c : Column)
  | lit (l : Literal)
  | bin (op : BinaryOperator) (left right : Expr)
  | un (op : UnaryOperator) (operand : Expr)
  | foreign (f : ForeignExpr)
deriving Inhabited

namespace Column

/-- The text of a reference: the name of the column, or its position if it has no name. -/
def sql (c : Column) : Text :=
  match c.name with
  | none => s!"${c.index}"
  | some name => if name.isEmpty then s!"${c.index}" else name

/-- Whether a reference is shown by its name, or by a position that is not too long. -/
def isWritable (c : Column) : Bool := c.name.any (!·.isEmpty) || Value.isShort c.index

/-- Equality of references, whatever the columns are called. -/
def same (a b : Column) : Bool :=
  a.index = b.index && a.type = b.type && a.nullable = b.nullable

/-- The same column at a position further on. -/
def shift (c : Column) (offset : Int) : Column := { c with index := c.index + offset }

end Column

namespace Literal

def isNull (l : Literal) : Bool :=
  match l.value with
  | .null => true
  | _ => false

def sql (l : Literal) : Text :=
  if l.isNull then "NULL"
  else if l.type = .varchar ∨ l.type = .text then "'" ++ l.value.plain ++ "'"
  else l.value.plain

/-- A literal equals itself and every literal of its type and value, unless the values cannot be
compared. -/
def same? (a b : Literal) : Option Bool :=
  if a.id = b.id then some true
  else (a.value.same? b.value).map fun same => same && a.type = b.type

end Literal

namespace Expr

/-- The type of an expression. Arithmetic has the type of its first operand. -/
@[grind =] def type : Expr → DataType
  | col c => c.type
  | lit l => l.type
  | bin op left _ => if op.isBoolean then .boolean else left.type
  | un .negate operand => operand.type
  | un _ _ => .boolean
  | foreign f => f.type

/-- The expression in SQL, with parentheses around every operation. -/
def sql : Expr → Text
  | col c => c.sql
  | lit l => l.sql
  | bin op left right => "(" ++ left.sql ++ " " ++ op.symbol ++ " " ++ right.sql ++ ")"
  | un op operand =>
    if op.isNullTest then "(" ++ operand.sql ++ " " ++ op.symbol ++ ")"
    else "(" ++ op.symbol ++ " " ++ operand.sql ++ ")"
  | foreign f => f.sql

/-- The text that shows how an expression is built. -/
def outline : Expr → Text
  | col c => s!"ColumnRef(${c.index})"
  | lit l => "Literal(" ++ l.value.plain ++ ")"
  | bin op left right =>
    "BinaryOp(" ++ op.symbol ++ ", " ++ left.outline ++ ", " ++ right.outline ++ ")"
  | un op operand => "UnaryOp(" ++ op.symbol ++ ", " ++ operand.outline ++ ")"
  | foreign f => f.outline

/-- Whether no integer inside an expression is too long to be written. -/
def isWritable : Expr → Bool
  | lit l => l.value.isWritable
  | bin _ left right => left.isWritable && right.isWritable
  | un _ operand => operand.isWritable
  | col _ | foreign _ => true

/-- Structural equality up to the names of columns, from left to right up to the first difference.
An expression of a foreign kind equals only itself. There is no answer if that leads to literals
that cannot be compared. -/
@[grind =] def same? : Expr → Expr → Option Bool
  | col a, col b => some (a.same b)
  | lit a, lit b => a.same? b
  | bin op l r, bin op' l' r' =>
    if op = op' then do if ← l.same? l' then r.same? r' else return false
    else some false
  | un op e, un op' e' => if op = op' then e.same? e' else some false
  | foreign a, foreign b => some (a.id = b.id)
  | _, _ => some false

/-- Whether two expressions are known to be equal. -/
def same (a b : Expr) : Bool := a.same? b = some true

end Expr

end Semijoin
