import SchemaQuery.Column.Reference

/-! Tables: named lists of columns with distinct names.  A table is a snapshot; a change of the
schema makes a new one. -/

namespace SchemaQuery

/-- A table of the schema, or the result of a join, whose columns carry qualified names. -/
structure Table where
  name : String
  columns : List Column
  temporary : Bool := false
  comment : String := ""
  autoIncrement : Option UInt64 := none
  joined : Bool := false
deriving DecidableEq

/-- The first name that an earlier one repeats; `seen` are the names before the list. -/
def firstRepeated? (seen : List String) : List String → Option String
  | [] => none
  | name :: rest => if seen.contains name then some name else firstRepeated? (name :: seen) rest

namespace Table

/-- The table of that name with the columns as its own.  Their names have to differ. -/
def make (name : String) (columns : List Column) : Except Error Table :=
  match firstRepeated? [] (columns.map Column.name) with
  | some column => .error (.schema (.duplicateColumn (name ++ "." ++ column)))
  | none => .ok { name, columns := columns.map (Column.ownedBy · name) }

def ofDefinitions (name : String) (definitions : List String) : Except Error Table := do
  make name (← definitions.mapM Column.ofDefinition)

/-- The result of a join, whose columns have qualified names. -/
def makeJoined (name : String) (columns : List Column) : Except Error Table :=
  (make name columns).map fun table => { table with joined := true }

def columnNames (table : Table) : List String := table.columns.map Column.name

/-- The constraints of all columns, in order. -/
def constraints (table : Table) : List Constraint := table.columns.flatMap Column.constraints

def columnNamed? (table : Table) (name : String) : Option Column :=
  table.columns.find? fun column => column.name == name

/-- The column of that name, which may have the name of the table in front. -/
def column? (table : Table) (name : String) : Option Column :=
  match table.columnNamed? name with
  | some column => some column
  | none => (Text.after? (table.name ++ ".") name).bind table.columnNamed?

/-- The column a reference stands for.  A column value stands for the column of the same owner, name
and type; in a join, also for the column that carries its qualified name. -/
def resolve? (table : Table) : ColumnRef → Option Column
  | .byName name => table.column? name
  | .byValue wanted =>
    let own := table.columns.find? fun column =>
      column.owner == wanted.owner && column.name == wanted.name && column.type == wanted.type
    match own with
    | some column => some column
    | none => if table.joined then table.column? wanted.qualifiedName else none

/-- The column a reference stands for, or the error that there is none. -/
def resolve (table : Table) (reference : ColumnRef) : Except Error Column :=
  match table.resolve? reference with
  | some column => .ok column
  | none => .error (.schema (.unknownColumnIn reference.label table.name))

def updateColumn (table : Table) (name : String) (change : Column → Column) : Table :=
  { table with
    columns := table.columns.map fun column =>
      if column.name = name then change column else column }

/-- Whether two tables are the same, whatever the caches of their constraints hold. -/
def same (a b : Table) : Bool :=
  { a with columns := a.columns.map Column.withoutCaches }
    == { b with columns := b.columns.map Column.withoutCaches }

end Table

end SchemaQuery
