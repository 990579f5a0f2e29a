import SchemaQuery.Request.Validation
import SchemaQuery.Statement

/-! The statement of a request.  Requests that pass validation have one; others may fail here too,
with an error that says what was not checked. -/

namespace SchemaQuery

def TableRef.target : TableRef → Target
  | .byValue table => if table.joined then .join table.name else .table table.name
  | .byName name => .table name

namespace Request

/-- The error that a method was given fields it cannot use. -/
def uncheckedFields (method : Method) : Error := .internal (.uncheckedFields method.keyword)

def columnName (table : Table) (reference : ColumnRef) : Except Error String :=
  (table.resolve reference).map Column.name

/-- The key of the column that rows are grouped or ordered by, if the method uses it. -/
def orderKey (uses : Bool) (table : Table) : Option ColumnRef → Except Error (Option ColumnKey)
  | some reference =>
    if uses then (table.resolve reference).map fun column => some column.key else .ok none
  | none => .ok none

def clauses (method : Method) (table : Table) (modifiers : Modifiers) : Except Error Clauses := do
  let groupBy ← orderKey method.takesGroupBy table modifiers.groupBy
  let orderBy ← orderKey method.takesOrderBy table modifiers.orderBy
  return {
    predicate := if method.takesWhere then modifiers.predicate else none
    groupBy
    orderBy
    limit := if method.takesLimit then modifiers.limit else none }

def projection (method : Method) (table : Table) (fields : Fields) : Except Error Projection :=
  match method, fields with
  | .count, .column reference =>
    if reference.isAll then .ok .countRows else (columnName table reference).map .countColumn
  | .count, _ => .ok .countRows
  | _, .column reference =>
    if reference.isAll then .ok .everything
    else (columnName table reference).map fun name => .columns [name]
  | _, .columns references => (references.mapM (columnName table)).map .columns
  | _, _ => .ok .everything

/-- The values of an insert or an update, by the names of their columns. -/
def namedValues (table : Table) : Fields → Except Error (List (String × Value))
  | .values pairs => pairs.mapM fun (reference, value) =>
    (columnName table reference).map fun name => (name, value)
  | _ => .error (.internal .noValues)

def definitionTexts (request : Request) : Except Error (List String) :=
  match request.fields with
  | .column _ | .columns _ => do (← definitions request.fields).mapM ColumnRef.definition
  | _ => (plannedColumns request).map fun columns => columns.map Column.definition

def position (table : Table) : Option ColumnRef → Except Error Position
  | some reference =>
    if reference.isFirst then .ok .first else (columnName table reference).map .after
  | none => .ok .last

/-- The constraint that a request adds.  A foreign key without a name gets the default one. -/
def newConstraint (table : Table) (kind : ConstraintKind) (reference : ColumnRef)
    (modifiers : Modifiers) : Except Error MySql.NewConstraint := do
  let column ← table.resolve reference
  let references ←
    match kind, modifiers.foreign with
    | .foreign, some foreign => foreign.splitQualified.map some
    | .foreign, none => .error (uncheckedFields (.addConstraint kind))
    | _, _ => .ok none
  let defaultName := references.map fun (_, foreign) =>
    ForeignKey.defaultName column.key ⟨none, foreign⟩
  return {
    kind
    name := modifiers.name <|> defaultName
    column := MySql.columnIdentifier column.name
    references }

/-- The statement of a request whose method and table are known. -/
def statementOf (resolved : Resolved) (request : Request) : Except Error Statement :=
  let method := resolved.method
  let target := request.table.target
  let modifiers := request.modifiers
  match method with
  | .select | .distinct | .count => do
    let table ← resolved.table
    let projection ← projection method table request.fields
    return .select (method == .distinct) projection target (← clauses method table modifiers)
  | .insert => do return .insert target (← namedValues (← resolved.table) request.fields)
  | .update => do
    let table ← resolved.table
    let values ← namedValues table request.fields
    return .update target values (← clauses method table modifiers)
  | .delete => do return .delete target (← clauses method (← resolved.table) modifiers)
  | .createTable temporary guarded => do
    return .createTable (request.createsTemporary temporary) (guarded || !modifiers.clobber) target
      (← definitionTexts request)
  | .dropTable temporary => .ok (.dropTable (temporary || modifiers.temporary) target)
  | .renameTable =>
    match request.fields with
    | .column reference => .ok (.renameTable target reference.label)
    | _ => .error (uncheckedFields method)
  | .truncate => .ok (.truncate target)
  | .describe => .ok (.describe target)
  | .showTables => .ok .showTables
  | .addColumn => do
    let table ← resolved.table
    match request.fields with
    | .column reference =>
      let position ← position table modifiers.after
      return .addColumn target (← reference.definition) position
    | _ => throw (uncheckedFields method)
  | .dropColumn => do
    let table ← resolved.table
    match request.fields with
    | .column reference => return .dropColumn target (← columnName table reference)
    | _ => throw (uncheckedFields method)
  | .alterColumn => do
    let table ← resolved.table
    match request.fields, modifiers.newDefinition with
    | .change old new, _ | .column old, some new =>
      let column ← columnName table old
      return .alterColumn target column (← new.definition)
    | _, _ => throw (uncheckedFields method)
  | .addConstraint kind => do
    let table ← resolved.table
    match request.fields with
    | .column reference =>
      return .addConstraint target (← newConstraint table kind reference modifiers)
    | _ => throw (uncheckedFields method)
  | .dropConstraint =>
    match request.fields with
    | .constraint constraint => .ok (.dropConstraint target constraint)
    | _ => .error (uncheckedFields method)

/-- The statement of a request. -/
def statement (catalog : Catalog) (request : Request) : Except Error Statement :=
  match resolve catalog request with
  | .ok resolved => statementOf resolved request
  | .error cause => .error (.unchecked "translate called on an unvalidated request" cause)

def text (catalog : Catalog) (request : Request) : Except Error String :=
  (statement catalog request).map Statement.text

end Request

def describeText (table : String) : String := (Statement.describe (.table table)).text

def showTablesText : String := Statement.showTables.text

end SchemaQuery
