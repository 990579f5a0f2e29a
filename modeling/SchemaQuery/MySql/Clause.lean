import SchemaQuery.Method
import SchemaQuery.Constraint
import SchemaQuery.MySql.Identifier

/-! The part of a table change that adds or drops a constraint. -/

namespace SchemaQuery.MySql

/-- A constraint to add.  The column is an identifier already; a foreign key refers to a table and a
column by name. -/
structure NewConstraint where
  kind : ConstraintKind
  name : Option String
  column : String
  references : Option (String × String)
deriving DecidableEq

/-- The name of a constraint between two words, if it has one. -/
def constraintName : Option String → String
  | some name => "constraint " ++ name ++ " "
  | none => ""

/-- What a foreign key refers to, if that is given. -/
def referencesText : Option (String × String) → String
  | some (table, column) =>
    " references " ++ quoteIdentifier table ++ " (" ++ columnIdentifier column ++ ")"
  | none => ""

def NewConstraint.clause (c : NewConstraint) : String :=
  match c.kind with
  | .index =>
    "add index " ++ (match c.name with
      | some name => name ++ " "
      | none => "") ++ "(" ++ c.column ++ ")"
  | .unique => "add " ++ constraintName c.name ++ "unique (" ++ c.column ++ ")"
  | .primary => "add " ++ constraintName c.name ++ "primary key (" ++ c.column ++ ")"
  | .foreign =>
    "add " ++ constraintName c.name ++ "foreign key (" ++ c.column ++ ")" ++
      referencesText c.references

def dropClause : Constraint → String
  | .index i => "drop index " ++ i.name
  | .unique u => "drop index " ++ u.name
  | .primary _ => "drop primary key"
  | .foreign f => "drop foreign key " ++ f.name

end SchemaQuery.MySql
