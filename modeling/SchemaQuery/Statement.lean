import SchemaQuery.Expr
import SchemaQuery.MySql.Clause
import SchemaQuery.MySql.Identifier
import SchemaQuery.MySql.Literal

/-! Statements of the engine's language, as trees and as text.  A statement holds names, values and
expressions; `Statement.text` writes it, quoting every name and value by the rules of the engine and
ending with a semicolon. -/

namespace SchemaQuery

/-- What a statement works on: a table of the database, or a join, given by its text. -/
inductive Target
  | table (name : String)
  | join (text : String)
deriving DecidableEq

/-- What a query returns of each row, or of all rows together. -/
inductive Projection
  | everything
  | columns (names : List String)
  | countRows
  | countColumn (name : String)
deriving DecidableEq

/-- The optional clauses of a statement on rows. -/
structure Clauses where
  predicate : Option Expr := none
  groupBy : Option ColumnKey := none
  orderBy : Option ColumnKey := none
  limit : Option Int64 := none
deriving DecidableEq

/-- Where a new column goes. -/
inductive Position
  | last
  | first
  | after (column : String)
deriving DecidableEq

/-- A statement. -/
inductive Statement
  | select (distinct : Bool) (projection : Projection) (target : Target) (clauses : Clauses)
  | insert (target : Target) (values : List (String × Value))
  | update (target : Target) (values : List (String × Value)) (clauses : Clauses)
  | delete (target : Target) (clauses : Clauses)
  | createTable (temporary guarded : Bool) (target : Target) (definitions : List String)
  | dropTable (temporary : Bool) (target : Target)
  | renameTable (target : Target) (name : String)
  | truncate (target : Target)
  | describe (target : Target)
  | showTables
  | addColumn (target : Target) (definition : String) (position : Position)
  | dropColumn (target : Target) (column : String)
  | alterColumn (target : Target) (column definition : String)
  | addConstraint (target : Target) (constraint : MySql.NewConstraint)
  | dropConstraint (target : Target) (constraint : Constraint)
deriving DecidableEq

def Target.text : Target → String
  | .table name => MySql.quoteIdentifier name
  | .join text => text

def Expr.text (e : Expr) : String := e.render MySql.qualifiedColumn MySql.literal

/-- The text of a column of the target, whose name may already be qualified. -/
def columnText (name : String) : String := MySql.qualifiedColumn ⟨none, name⟩

def Projection.text : Projection → String
  | .everything => "*"
  | .columns names => ", ".intercalate (names.map columnText)
  | .countRows => "count(*)"
  | .countColumn name => "count(" ++ columnText name ++ ")"

/-- A clause with the words that open it, if it is there. -/
def optionalClause (opening : String) : Option String → String
  | some text => opening ++ text
  | none => ""

/-- The clauses in their fixed order. -/
def Clauses.text (c : Clauses) : String :=
  optionalClause " where " (c.predicate.map Expr.text)
    ++ optionalClause " group by " (c.groupBy.map MySql.qualifiedColumn)
    ++ optionalClause " order by " (c.orderBy.map MySql.qualifiedColumn)
    ++ optionalClause " limit " (c.limit.map fun limit => toString limit.toInt)

def Position.text : Position → String
  | .last => ""
  | .first => " first"
  | .after column => " after " ++ columnText column

def temporaryWord (temporary : Bool) : String := if temporary then "temporary " else ""

namespace Statement

def assignment (pair : String × Value) : String :=
  columnText pair.1 ++ " = " ++ MySql.literal pair.2

def body : Statement → String
  | .select distinct projection target clauses =>
    "select " ++ (if distinct then "distinct " else "") ++ projection.text ++ " from " ++
      target.text ++ clauses.text
  | .insert target values =>
    "insert into " ++ target.text ++ " (" ++
      ", ".intercalate (values.map fun pair => columnText pair.1)
      ++ ") values (" ++ ", ".intercalate (values.map fun pair => MySql.literal pair.2) ++ ")"
  | .update target values clauses =>
    "update " ++ target.text ++ " set " ++ ", ".intercalate (values.map assignment) ++ clauses.text
  | .delete target clauses => "delete from " ++ target.text ++ clauses.text
  | .createTable temporary guarded target definitions =>
    "create " ++ temporaryWord temporary ++ "table " ++ target.text ++ " "
      ++ (if guarded then "if not exists " else "") ++ "(" ++ ", ".intercalate definitions ++ ")"
  | .dropTable temporary target =>
    "drop " ++ temporaryWord temporary ++ "table " ++ target.text ++ " if exists"
  | .renameTable target name =>
    "alter table " ++ target.text ++ " rename " ++ MySql.quoteIdentifier name
  | .truncate target => "truncate table " ++ target.text
  | .describe target => "describe " ++ target.text
  | .showTables => "show tables"
  | .addColumn target definition position =>
    "alter table " ++ target.text ++ " add column " ++ definition ++ position.text
  | .dropColumn target column =>
    "alter table " ++ target.text ++ " drop column " ++ MySql.quoteIdentifier column
  | .alterColumn target column definition =>
    "alter table " ++ target.text ++ " change column " ++ MySql.quoteIdentifier column ++ " "
      ++ definition
  | .addConstraint target constraint =>
    "alter table " ++ target.text ++ " " ++ constraint.clause
  | .dropConstraint target constraint =>
    "alter table " ++ target.text ++ " " ++ MySql.dropClause constraint

def text (statement : Statement) : String := statement.body ++ ";"

end Statement

end SchemaQuery
