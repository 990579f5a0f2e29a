import SchemaQuery.Column.Key
import SchemaQuery.Text.Cut

/-! Identifiers in statements.  Tables are always quoted with backticks; columns only when their
name is not a bare word. -/

namespace SchemaQuery.MySql

/-- The name between backticks, with inner backticks doubled. -/
def quoteIdentifier (name : String) : String :=
  let doubled := name.toList.flatMap fun c => if c = '\x60' then [c, c] else [c]
  String.ofList ('\x60' :: doubled ++ ['\x60'])

/-- A character that a bare identifier may have. -/
def isWordChar (c : Char) : Bool := c.isAlphanum || c == '_' || c == '$'

/-- Whether a name needs no quotes: letters, digits, underscores and dollar signs, but not digits
alone. -/
def isBare (name : String) : Bool :=
  !name.isEmpty && name.toList.all isWordChar && !name.toList.all Char.isDigit

def columnIdentifier (name : String) : String := if isBare name then name else quoteIdentifier name

/-- The identifier of a column with its table in front.  The name of a joined column brings its own
table part, which ends at the first point. -/
def qualifiedColumn (key : ColumnKey) : String :=
  match Text.splitFirst? '.' key.column with
  | some (table, column) => columnIdentifier table ++ "." ++ columnIdentifier column
  | none =>
    match key.table with
    | some table => columnIdentifier table ++ "." ++ columnIdentifier key.column
    | none => columnIdentifier key.column

end SchemaQuery.MySql
