import SchemaQuery.Column
import SchemaQuery.Column.Definition.Token

/-! Writing a column as a definition.  The clauses come in a fixed order, and those that say nothing
new are left out. -/

namespace SchemaQuery.Definition

/-- Whether a name has to be quoted to be one token. -/
def needsQuotes (name : String) : Bool :=
  name.isEmpty || name.toList.any fun c =>
    Text.isBlank c || isQuote c || c == '(' || c == ')' || c == ','

def nameToken (name : String) : String := if needsQuotes name then quote '\x60' name else name

def keyClause : Option KeyKind → String
  | some .unique => " unique"
  | some .primary => " primary key"
  | some .index => " key"
  | none => ""

def print (column : Column) : String :=
  nameToken column.name ++ " " ++ column.type
    ++ (if column.nullable then " null" else " not null")
    ++ (match column.defaultValue with
      | some value => " default " ++ value
      | none => "")
    ++ (if column.visible then "" else " invisible")
    ++ (if column.autoIncrement then " auto_increment" else "")
    ++ keyClause column.keyKind?
    ++ (if column.comment.isEmpty then "" else " comment " ++ quote '\'' column.comment)

end SchemaQuery.Definition

namespace SchemaQuery.Column

/-- The definition that describes the column. -/
def definition (column : Column) : String := Definition.print column

end SchemaQuery.Column
