import SchemaQuery.Column.Definition.Printer
import SchemaQuery.MySql.DataType
import SchemaQuery.MySql.Literal
import SchemaQuery.Text.Cut

/-! Reading the engine's description of a table back into column definitions.  A description has a
row for each column, with the fields `Field`, `Type`, `Null`, `Key`, `Default` and `Extra`. -/

namespace SchemaQuery.MySql

/-- The text of a field, whose name may also be in lower case; an empty cell has none. -/
def field? (row : Row) (name : String) : Option String :=
  let cell := match row.get? name with
    | some value => some value
    | none => row.get? (Text.lower name)
  (cell.filter (!·.isNull)).map Value.display

/-- Whether a default is an expression, which is not quoted. -/
def isExpression (value extra : String) : Bool :=
  Text.occursIn "default_generated" extra || Text.sameLetters value "current_timestamp"
    || value.toList.head? == some '('

/-- The default as a definition writes it: quoted for types of text, as it is for all others. -/
def defaultText (type value extra : String) : String :=
  if quotedDefaultTypes.contains (baseType type) && !isExpression value extra then textLiteral value
  else value

/-- The kind of key that the `Key` field names. -/
def keyOfField? : Option String → Option KeyKind
  | some "PRI" => some .primary
  | some "UNI" => some .unique
  | some "MUL" => some .index
  | _ => none

def describedColumn (row : Row) : Except Error Column :=
  match field? row "Field" with
  | none => .error (.internal .describeField)
  | some name =>
    match field? row "Type" with
    | none => .error (.internal (.describeType name))
    | some type =>
      let extra := Text.lower ((field? row "Extra").getD "")
      let column : Column :=
        { name, type
          nullable := (field? row "Null").any (Text.sameLetters · "yes")
          autoIncrement := Text.occursIn "auto_increment" extra
          visible := !Text.occursIn "invisible" extra
          defaultValue := (field? row "Default").map fun value => defaultText type value extra }
      match keyOfField? (field? row "Key") with
      | some kind => .ok (column.withKey kind)
      | none => .ok column

/-- The definition of the column that a row of a description is about. -/
def describedDefinition (row : Row) : Except Error String :=
  (describedColumn row).map Column.definition

def listedTable (row : Row) : Except Error String :=
  match row.first? with
  | some value => .ok value.display
  | none => .error (.internal .emptyListing)

end SchemaQuery.MySql
