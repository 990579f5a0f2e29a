import SchemaQuery.Column
import SchemaQuery.Value

/-! Expressions over columns and values.  Every operation is written in brackets, so that the text
of an expression shows its tree.  Only comparisons, which include the logical connectives, are
predicates. -/

namespace SchemaQuery

/-- The operations on numbers. -/
inductive Arithmetic
  | add
  | sub
  | mul
  | div
deriving DecidableEq

/-- The comparisons and the connectives between them. -/
inductive Comparison
  | eq
  | ne
  | lt
  | le
  | gt
  | ge
  | like
  | isIn
  | and
  | or
deriving DecidableEq

def Arithmetic.all : List Arithmetic := [.add, .sub, .mul, .div]

def Comparison.all : List Comparison := [.eq, .ne, .lt, .le, .gt, .ge, .like, .isIn, .and, .or]

def Arithmetic.symbol : Arithmetic → String
  | .add => "+"
  | .sub => "-"
  | .mul => "*"
  | .div => "/"

def Comparison.symbol : Comparison → String
  | .eq => "="
  | .ne => "<>"
  | .lt => "<"
  | .le => "<="
  | .gt => ">"
  | .ge => ">="
  | .like => "like"
  | .isIn => "in"
  | .and => "and"
  | .or => "or"

/-- An expression. -/
inductive Expr
  | column (key : ColumnKey)
  | value (value : Value)
  | list (values : List Value)
  | operation (op : Arithmetic) (left right : Expr)
  | comparison (op : Comparison) (left right : Expr)
deriving DecidableEq

namespace Expr

/-- What an expression is at its root: a column or a value, a calculation, or a predicate. -/
inductive Role
  | operand
  | operation
  | comparison
deriving DecidableEq

def role : Expr → Role
  | .column _ | .value _ | .list _ => .operand
  | .operation .. => .operation
  | .comparison .. => .comparison

/-- The word for what an expression derives; columns and values derive nothing. -/
def Role.derived? : Role → Option String
  | .operand => none
  | .operation => some "operation"
  | .comparison => some "comparison"

/-- Whether the expression is a predicate. -/
def isComparison (e : Expr) : Bool := e.role == .comparison

/-- The word for an expression that stands where a comparison is expected. -/
def found (e : Expr) : String := e.role.derived?.getD "an operand"

/-- The columns of the expression, from left to right. -/
def columns : Expr → List ColumnKey
  | .column key => [key]
  | .value _ | .list _ => []
  | .operation _ left right | .comparison _ left right => left.columns ++ right.columns

/-- The text of the expression, given the text of columns and values. -/
def render (column : ColumnKey → String) (value : Value → String) : Expr → String
  | .column key => column key
  | .value v => value v
  | .list values => "(" ++ ", ".intercalate (values.map value) ++ ")"
  | .operation op left right =>
    "(" ++ left.render column value ++ " " ++ op.symbol ++ " " ++ right.render column value ++ ")"
  | .comparison op left right =>
    "(" ++ left.render column value ++ " " ++ op.symbol ++ " " ++ right.render column value ++ ")"

/-- A value as an expression shows it: text stands in single quotes, as it is. -/
def displayValue : Value → String
  | .text s => "'" ++ s ++ "'"
  | v => v.display

def display (e : Expr) : String := e.render ColumnKey.qualified displayValue

end Expr

end SchemaQuery
