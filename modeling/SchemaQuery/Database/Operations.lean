import SchemaQuery.Constraint.Check
import SchemaQuery.Database.SchemaChange
import SchemaQuery.Join

/-! The operations of a database by name.  Each is a request of a fixed method; those that change a
table give its new snapshot. -/

namespace SchemaQuery.Database

variable {ε : Type}

def query (engine : Engine ε) (method : String) (table : TableRef) (fields : Fields)
    (modifiers : Modifiers) : Action (Database ε) Output :=
  submit engine { method, table, fields, modifiers }

/-- Submits a request on a table by name, and gives the snapshot that `result` names afterwards. -/
def change (engine : Engine ε) (method table : String) (fields : Fields) (modifiers : Modifiers)
    (result : String) : Action (Database ε) Table := do
  discard (query engine method (.byName table) fields modifiers)
  requireTable result

def select (engine : Engine ε) (table : TableRef) (fields : Fields) (modifiers : Modifiers) :
    Action (Database ε) (List Row) := do
  return (← query engine "select" table fields modifiers).toRows

def distinct (engine : Engine ε) (table : TableRef) (fields : Fields) (modifiers : Modifiers) :
    Action (Database ε) (List Row) := do
  return (← query engine "distinct" table fields modifiers).toRows

/-- The number of rows; zero when the engine gives none. -/
def count (engine : Engine ε) (table : TableRef) (modifiers : Modifiers) :
    Action (Database ε) Value := do
  return ((← query engine "count" table .nothing modifiers).toScalar?).getD (.int 0)

def insert (engine : Engine ε) (table : String) (values : Fields) : Action (Database ε) Unit :=
  discard (query engine "insert" (.byName table) values {})

def update (engine : Engine ε) (table : String) (values : Fields) (predicate : Option Expr) :
    Action (Database ε) Unit :=
  discard (query engine "update" (.byName table) values { predicate })

def delete (engine : Engine ε) (table : String) (predicate : Option Expr) :
    Action (Database ε) Unit :=
  discard (query engine "delete" (.byName table) .nothing { predicate })

/-- Creates a table from definitions or from a table value. -/
def makeTable (engine : Engine ε) (table : TableRef) (columns : Fields) (temporary clobber : Bool) :
    Action (Database ε) Table := do
  discard (query engine "create table" table columns { temporary, clobber })
  requireTable table.name

def moveTable (engine : Engine ε) (old new : String) : Action (Database ε) Table :=
  change engine "rename table" old (Fields.ofText new) {} new

def truncateTable (engine : Engine ε) (table : String) : Action (Database ε) Unit :=
  discard (query engine "truncate" (.byName table) .nothing {})

def dropTable (engine : Engine ε) (table : String) (temporary : Bool) : Action (Database ε) Unit :=
  discard (query engine "drop table" (.byName table) .nothing { temporary })

/-- Adds a column, at the end or after another one. -/
def addColumn (engine : Engine ε) (table : String) (column : ColumnRef) (after : Option ColumnRef) :
    Action (Database ε) Table :=
  change engine "add column" table (.column column) { after } table

def dropColumn (engine : Engine ε) (table : String) (column : ColumnRef) :
    Action (Database ε) Table :=
  change engine "drop column" table (.column column) {} table

def alterColumn (engine : Engine ε) (table : String) (old new : ColumnRef) :
    Action (Database ε) Table :=
  change engine "alter column" table (.column old) { newDefinition := some new } table

/-- Adds an index, a unique constraint or a primary key to a column. -/
def addKey (engine : Engine ε) (kind : KeyKind) (table : String) (column : ColumnRef)
    (name : Option String) : Action (Database ε) Table :=
  let method := match kind with
    | .index => "add index"
    | .unique => "add unique"
    | .primary => "add primary key"
  change engine method table (.column column) { name } table

def addForeignKey (engine : Engine ε) (table : String) (column foreign : ColumnRef)
    (name : Option String) : Action (Database ε) Table :=
  change engine "add foreign key" table (.column column) { foreign := some foreign, name } table

def dropConstraint (engine : Engine ε) (table : String) (constraint : Constraint) :
    Action (Database ε) Table :=
  change engine "drop constraint" table (.constraint constraint) {} table

def join (left right : String) (on : Expr) (direction : JoinDirection) (asName : Option String) :
    Action (Database ε) Table := do
  let left ← requireTable left
  let right ← requireTable right
  left.join right on direction asName

def column? (database : Database ε) (table column : String) : Option Column :=
  (database.table? table).bind fun found => found.column? column

/-- Whether a column could be added to a table: the reference defines one, its type is known and its
name is free. -/
def isValidColumn (database : Database ε) (table : String) (reference : ColumnRef) : Bool :=
  match database.table? table, reference.toColumn with
  | some found, .ok column => MySql.isKnownType column.type && (found.column? column.name).isNone
  | _, _ => false

/-- The rows of a table, as constraint checks read them. -/
def fetch (engine : Engine ε) (table : String) (columns : List String) (distinct : Bool) :
    Action (Database ε) (List Row) := do
  let fields := Fields.columns (columns.map .byName)
  let method := if distinct then "distinct" else "select"
  return (← query engine method (.byName table) fields {}).toRows

def source (engine : Engine ε) : RowSource (Database ε) where
  fetch := fetch engine
  table? database name := database.table? name
  changeTable name change database :=
    { database with tables := SchemaQuery.changeTable name change database.tables }

/-- Checks a value against the constraints of a column.  Of foreign keys only those that refer from
the column count, not those that refer to it. -/
def checkValue (engine : Engine ε) (table column : String) (value : Value) :
    Action (Database ε) Unit := do
  let snapshot ← requireTable table
  match snapshot.column? column with
  | none => throw (.schema (.unknownColumnIn column snapshot.name))
  | some found =>
    let counts (constraint : Constraint) : Bool :=
      constraint.isKeyed || constraint.target == found.key
    let places := (found.constraints.zipIdx.filter fun (c, _) => counts c).map (·.2)
    places.forM fun place => (source engine).checkAt snapshot.name found.name place value

/-- Adds a row whose values pass the constraints of their columns. -/
def insertChecked (engine : Engine ε) (table : String) (values : Fields) :
    Action (Database ε) Unit := do
  match values with
  | .values pairs => pairs.forM fun (column, value) => checkValue engine table column.label value
  | _ => pure ()
  insert engine table values

end SchemaQuery.Database
