import SchemaQuery.Database

/-! Keeping the registry in step with the engine.  After a statement that changes the schema, the
tables it touches are described again and their snapshots replaced.  The engine's description says
nothing of foreign keys, so these are carried over from the old snapshot. -/

namespace SchemaQuery

def Column.foreignKeys (column : Column) : List Constraint :=
  column.constraints.filter fun c => c.kind?.isNone

/-- The table with the foreign keys that a former snapshot has on the columns of the same names,
except for the dropped one. -/
def Table.carryForeignKeys (former : Table) (dropped : Option Constraint) (table : Table) : Table :=
  { table with
    columns := table.columns.map fun column =>
      match former.columnNamed? column.name with
      | some old =>
        (old.foreignKeys.filter fun c => !dropped.any c.same).foldl Column.attach column
      | none => column }

variable {ε : Type}

namespace Database

/-- Puts a snapshot into the registry, in place of the one of the same name. -/
def replaceTable (table : Table) : Action (Database ε) Unit :=
  modify fun database => { database with tables := putTable database.tables table }

def removeTable (name : String) : Action (Database ε) (Option Table) := do
  let database ← get
  set { database with tables := database.tables.eraseP fun table => table.name == name }
  return database.table? name

/-- Describes a table again, keeping what the engine does not report: that the table is temporary,
and the foreign keys other than the dropped one. -/
def refreshTable (engine : Engine ε) (name : String) (dropped : Option Constraint) :
    Action (Database ε) Unit := do
  let former := (← get).table? name
  let table ← describeTable engine name
  match former with
  | some former =>
    replaceTable (Table.carryForeignKeys former dropped
      { table with temporary := former.temporary })
  | none => replaceTable table

/-- Describes a table for the first time. -/
def loadTable (engine : Engine ε) (name : String) (temporary : Bool) :
    Action (Database ε) Unit := do
  replaceTable { ← describeTable engine name with temporary }

/-- Notes a foreign key on both of its columns. -/
def linkForeignKey (table column foreignTable foreignColumn : String) (name : Option String) :
    Action (Database ε) Unit := do
  let target ← requireTable table
  let foreign ← requireTable foreignTable
  match foreign.columnNamed? foreignColumn with
  | none => throw (.schema (.unknownForeignColumn (foreignTable ++ "." ++ foreignColumn)))
  | some referenced =>
    match target.columnNamed? column with
    | none => throw (.schema (.unknownColumn (table ++ "." ++ column)))
    | some referencing =>
      let (_, referencing, referenced) ← referencing.link referenced name
      replaceTable (target.updateColumn column fun _ => referencing)
      replaceTable (foreign.updateColumn foreignColumn fun _ => referenced)

/-- The name of the column that a constraint is for. -/
def targetColumn (table : String) (fields : Fields) : Action (Database ε) String := do
  match fields with
  | .column reference =>
    match (← requireTable table).resolve? reference with
    | some column => return column.name
    | none => throw (.schema (.unknownColumn reference.label))
  | _ => throw (.internal (.without "constraint" "a column"))

/-- Describes both tables of a new foreign key again and notes it on them. -/
def applyForeignKey (engine : Engine ε) (table : String) (fields : Fields)
    (foreign : Option ColumnRef) (name : Option String) : Action (Database ε) Unit := do
  let column ← targetColumn table fields
  match foreign with
  | some foreign =>
    let (foreignTable, foreignColumn) ← foreign.splitQualified
    refreshTable engine table none
    refreshTable engine foreignTable none
    linkForeignKey table column foreignTable foreignColumn name
  | none => throw (.internal (.without "add foreign" "a foreign column"))

/-- Describes the tables of a dropped constraint again. -/
def applyDrop (engine : Engine ε) (table : String) (dropped : Constraint) :
    Action (Database ε) Unit := do
  refreshTable engine table (some dropped)
  match dropped with
  | .foreign key =>
    match key.foreign.table with
    | some foreignTable =>
      if foreignTable ≠ table ∧ ((← get).table? foreignTable).isSome then
        refreshTable engine foreignTable (some dropped)
    | none => pure ()
  | _ => pure ()

/-- Brings the registry up to date after a request that changes the schema.  A request that has been
checked has the fields that its method needs here. -/
def applyChange (engine : Engine ε) (method : Method) (request : Request) :
    Action (Database ε) Unit := do
  let name := request.table.name
  match method with
  | .dropTable _ => discard (removeTable name)
  | .renameTable =>
    match request.fields with
    | .column new =>
      let former ← removeTable name
      loadTable engine new.label (former.any Table.temporary)
    | _ => throw (.internal (.without "rename" "a new name"))
  | .createTable temporary _ => loadTable engine name (request.createsTemporary temporary)
  | .addConstraint .foreign =>
    applyForeignKey engine name request.fields request.modifiers.foreign request.modifiers.name
  | .dropConstraint =>
    match request.fields with
    | .constraint dropped => applyDrop engine name dropped
    | _ => throw (.internal (.without "drop constraint" "a constraint"))
  | _ => refreshTable engine name none

/-- Checks a request, runs its statement and gives its output.  A request that changes the schema
brings the registry up to date. -/
def submit (engine : Engine ε) (request : Request) : Action (Database ε) Output := do
  let resolved ← request.validate ((← get).catalog engine)
  let statement ← Request.statementOf resolved request
  let method := resolved.method
  let maxRows := request.modifiers.maxRows
  let answer ← run engine statement.text { expectsRows := method.returnsRows, maxRows }
  let output ← Output.ofAnswer method maxRows answer
  if method.changesSchema then applyChange engine method request
  return output

end Database

end SchemaQuery
