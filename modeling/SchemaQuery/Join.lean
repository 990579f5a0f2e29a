import SchemaQuery.Statement
import SchemaQuery.Table

/-! Joins of two tables.  A join is itself a table: its name is its text, and its columns are those
of both tables under qualified names, without constraints. -/

namespace SchemaQuery

/-- Which rows without a partner a join keeps, if any. -/
inductive JoinDirection
  | inner
  | left
  | right
  | cross
deriving DecidableEq

def JoinDirection.all : List JoinDirection := [.inner, .left, .right, .cross]

def JoinDirection.keyword : JoinDirection → String
  | .inner => "inner"
  | .left => "left"
  | .right => "right"
  | .cross => "cross"

/-- The column as part of a join, qualified unless it already is. -/
def Column.joinedUnder (qualifier : String) (column : Column) : Column :=
  { column with
    owner := none
    name := if hasPoint column.name then column.name else qualifier ++ "." ++ column.name
    constraints := [] }

namespace Table

def joinText (left right : Table) (on : Expr) (direction : JoinDirection) (asName : Option String) :
    String :=
  left.name ++ " " ++ direction.keyword ++ " join " ++ right.name
    ++ optionalClause " as " (asName.map MySql.quoteIdentifier) ++ " on " ++ on.text

/-- The join of two tables on a comparison.  An asName takes the place of the right table's name. -/
def join (left right : Table) (on : Expr) (direction : JoinDirection) (asName : Option String) :
    Except Error Table :=
  if on.isComparison then
    makeJoined (joinText left right on direction asName)
      (left.columns.map (Column.joinedUnder left.name)
        ++ right.columns.map (Column.joinedUnder (asName.getD right.name)))
  else .error (.shape (.joinOperand on.found))

end Table

end SchemaQuery
