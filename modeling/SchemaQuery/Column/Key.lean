/-! Names of columns, and the three strengths of keys. -/

namespace SchemaQuery

/-- A column by name, with the table that owns it. -/
structure ColumnKey where
  table : Option String
  column : String
deriving DecidableEq

/-- Whether a name has a table part of its own. -/
def hasPoint (name : String) : Bool := name.toList.contains '.'

/-- `table.column`; the column alone when it has no owner or is already qualified. -/
def ColumnKey.qualified (key : ColumnKey) : String :=
  match key.table with
  | some table => if hasPoint key.column then key.column else table ++ "." ++ key.column
  | none => key.column

/-- What a keyed constraint makes of its column. -/
inductive KeyKind
  | index
  | unique
  | primary
deriving DecidableEq

namespace KeyKind

/-- The word for the kind, which is also the default name of its constraints. -/
def keyword : KeyKind → String
  | .index => "index"
  | .unique => "unique"
  | .primary => "primary"

/-- The order of the kinds, the primary key being the strongest. -/
def strength : KeyKind → Nat
  | .index => 0
  | .unique => 1
  | .primary => 2

def strongestFirst : List KeyKind := [.primary, .unique, .index]

/-- Whether a key of kind `other` serves where this kind is asked for: a unique key is also an
index. -/
def servedBy (kind other : KeyKind) : Bool := kind.strength ≤ other.strength

end KeyKind

end SchemaQuery
