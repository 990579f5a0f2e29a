import SchemaQuery.Request.Definitions
import SchemaQuery.Request.Resolution

/-! The fit of a request with the schema: columns exist or do not exist yet, required values are
there, and keys are possible.  These checks rely on the shape of the request, which is checked
before. -/

namespace SchemaQuery.Request

/-- Inserting gives a value to every column that has to have one. -/
def fitInsert (table : Table) (pairs : List (ColumnRef × Value)) : Except Error Unit := do
  let given ← pairs.mapM fun (reference, _) => (table.resolve reference).map Column.name
  let missing := table.columns.find? fun column =>
    !column.nullable && column.defaultValue.isNone && !column.autoIncrement
      && !given.contains column.name
  match missing with
  | some column => .error (.schema (.missingColumn column.qualifiedName))
  | none => .ok ()

/-- The columns of a new table have different names. -/
def fitCreation (request : Request) : Except Error Unit := do
  let columns ← plannedColumns request
  match firstRepeated? [] (columns.map Column.name) with
  | some name => .error (.schema (.duplicateColumn name))
  | none => .ok ()

/-- A new column has a new name. -/
def fitNewColumn (table : Table) : Fields → Except Error Unit
  | .column reference => do
    let column ← reference.toColumn
    if (table.column? column.name).isSome then
      throw (.schema (.columnExists table.name column.name))
  | _ => .ok ()

/-- The column that a new one goes after exists. -/
def fitPlace (table : Table) : Option ColumnRef → Except Error Unit
  | some after => if after.isFirst then pure () else (table.resolve after).map fun _ => ()
  | none => .ok ()

/-- A new column has a new name, and the column it goes after exists. -/
def fitAddition (table : Table) (fields : Fields) (after : Option ColumnRef) :
    Except Error Unit := do
  fitNewColumn table fields
  fitPlace table after

/-- An altered column exists, and its new name, if it is defined anew, is its own or free. -/
def fitAlteration (table : Table) (old : ColumnRef) (new : Option ColumnRef) :
    Except Error Unit := do
  let column ← table.resolve old
  match new with
  | some new =>
    let renamed ← new.toColumn
    if renamed.name ≠ column.name ∧ (table.column? renamed.name).isSome then
      throw (.schema (.columnExists table.name renamed.name))
  | none => pure ()

/-- The columns that a query names exist, unless it means all of them. -/
def fitQuery (table : Table) : Fields → Except Error Unit
  | .column reference =>
    if reference.isAll then pure () else table.resolve reference *> pure ()
  | .columns references =>
    references.forM fun reference => (table.resolve reference).map fun _ => ()
  | _ => .ok ()

/-- A foreign key refers to a column of another table of the catalog.  A name that is left to the
library must not be too long. -/
def fitForeign (catalog : Catalog) (table : Table) (target : Column) (reference : ColumnRef)
    (name : Option String) : Except Error Unit := do
  let (foreignTable, foreignColumn) ← reference.splitQualified
  if foreignTable = table.name then throw (.constraint (.ownTable table.name))
  match catalog.table? foreignTable with
  | none => .error (.schema (.unknownForeignTable foreignTable))
  | some other =>
    match other.column? foreignColumn with
    | none => .error (.schema (.unknownForeignColumn (foreignTable ++ "." ++ foreignColumn)))
    | some foreign =>
      if name.isNone then checkNameLength (ForeignKey.defaultName target.key foreign.key)
      else .ok ()

/-- A column is fit for a new constraint of the kind. -/
def fitKind (catalog : Catalog) (table : Table) (kind : ConstraintKind) (target : Column)
    (modifiers : Modifiers) : Except Error Unit :=
  match kind with
  | .primary =>
    if target.nullable then .error (.constraint (.nullablePrimary target.qualifiedName)) else .ok ()
  | .foreign =>
    match modifiers.foreign with
    | some foreign => fitForeign catalog table target foreign modifiers.name
    | none => .error (.internal (.without "add foreign" "a foreign column"))
  | .index | .unique => .ok ()

/-- A name, if there is one, is not too long. -/
def fitName : Option String → Except Error Unit
  | some name => checkNameLength name
  | none => .ok ()

/-- A new constraint fits its column, and its name is not too long. -/
def fitConstraint (catalog : Catalog) (table : Table) (kind : ConstraintKind)
    (reference : ColumnRef) (modifiers : Modifiers) : Except Error Unit := do
  let target ← table.resolve reference
  fitKind catalog table kind target modifiers
  fitName modifiers.name

/-- Whether the fields fit the schema.  Where the shape of a request leaves no other fields, their
lack is an internal error. -/
def fitFields (catalog : Catalog) (resolved : Resolved) (request : Request) : Except Error Unit :=
  let modifiers := request.modifiers
  match resolved.method with
  | .insert => do
    let table ← resolved.table
    match request.fields with
    | .values pairs => fitInsert table pairs
    | _ => throw (.internal (.without "insert" "values"))
  | .update => do
    let table ← resolved.table
    match request.fields with
    | .values pairs => pairs.forM fun (reference, _) => (table.resolve reference).map fun _ => ()
    | _ => pure ()
  | .renameTable =>
    match request.fields with
    | .column reference =>
      if (catalog.table? reference.label).isSome then
        .error (.schema (.tableExists reference.label))
      else .ok ()
    | _ => .error (.internal (.without "rename" "a name"))
  | .dropColumn =>
    match request.fields with
    | .column reference => do (← resolved.table).resolve reference *> pure ()
    | _ => .ok ()
  | .createTable _ _ => fitCreation request
  | .addColumn => do fitAddition (← resolved.table) request.fields modifiers.after
  | .alterColumn => do
    let table ← resolved.table
    match request.fields with
    | .change old new => fitAlteration table old (some new)
    | .column old => fitAlteration table old modifiers.newDefinition
    | _ => throw (.internal (.without "alter column" "a column"))
  | .select | .distinct | .count => do fitQuery (← resolved.table) request.fields
  | .addConstraint kind => do
    let table ← resolved.table
    match request.fields with
    | .column reference => fitConstraint catalog table kind reference modifiers
    | _ => throw (.internal (.without "add constraint" "a column"))
  | .dropConstraint => do
    let table ← resolved.table
    match request.fields with
    | .constraint constraint =>
      if table.constraints.any constraint.same then pure ()
      else throw (.schema (.notAttached constraint.name table.name))
    | _ => pure ()
  | .delete | .dropTable _ | .showTables | .describe | .truncate => .ok ()

/-- A limit is positive. -/
def fitLimit (method : Method) (modifiers : Modifiers) : Except Error Unit :=
  match modifiers.limit with
  | some limit =>
    if method.takesLimit && limit.toInt ≤ 0 then .error (.schema (.limit limit)) else .ok ()
  | none => .ok ()

/-- A column that rows are grouped or ordered by exists, if the method uses it. -/
def fitOrder (uses : Bool) (resolved : Resolved) (reference : Option ColumnRef) :
    Except Error Unit :=
  match reference with
  | some reference => if uses then do (← resolved.table).resolve reference *> pure () else .ok ()
  | none => .ok ()

/-- Every check of a request against the schema. -/
def checkSchema (catalog : Catalog) (resolved : Resolved) (request : Request) :
    Except Error Unit := do
  fitFields catalog resolved request
  fitLimit resolved.method request.modifiers
  fitOrder resolved.method.takesGroupBy resolved request.modifiers.groupBy
  fitOrder resolved.method.takesOrderBy resolved request.modifiers.orderBy

end SchemaQuery.Request
