import SchemaQuery.Column.Definition.Parser
import SchemaQuery.Column.Definition.Printer
import SchemaQuery.Text.Cut

/-! References to columns.  A request names a column by text or by value; where a new column is
wanted, the text is its definition. -/

namespace SchemaQuery

/-- A column by name or definition, or the column itself. -/
inductive ColumnRef
  | byName (text : String)
  | byValue (column : Column)
deriving DecidableEq

namespace ColumnRef

/-- The text of the reference, or the name of the column. -/
def label : ColumnRef → String
  | .byName text => text
  | .byValue column => column.name

def toColumn : ColumnRef → Except Error Column
  | .byName definition => Column.ofDefinition definition
  | .byValue column => .ok column

/-- The definition that the reference stands for; a text has to be one already. -/
def definition : ColumnRef → Except Error String
  | .byName text => (Column.ofDefinition text).map fun _ => Text.trim text
  | .byValue column => .ok column.definition

def splitDefinitions : ColumnRef → Except Error (List ColumnRef)
  | .byName text =>
    match Definition.splitList text with
    | .error fault => .error (.definition fault)
    | .ok [] => .error (.definition (.noDefinitions text))
    | .ok pieces => .ok (pieces.map .byName)
  | .byValue column => .ok [.byValue column]

/-- The table and the column of a reference that names both. -/
def splitQualified : ColumnRef → Except Error (String × String)
  | .byValue column =>
    match column.owner with
    | some table => .ok (table, column.name)
    | none => .error (.shape (.unowned column.name))
  | .byName text =>
    match Text.splitFirst? '.' text with
    | some (table, column) =>
      if table.isEmpty || column.isEmpty then .error (.shape (.unqualified text))
      else .ok (table, column)
    | none => .error (.shape (.unqualified text))

/-- Whether the reference is the word for every column. -/
def isAll : ColumnRef → Bool
  | .byName text => Text.sameLetters text "all" || text == "*"
  | .byValue _ => false

/-- Whether the reference is the word for the first position. -/
def isFirst : ColumnRef → Bool
  | .byName text => Text.sameLetters text "first"
  | .byValue _ => false

end ColumnRef

end SchemaQuery
