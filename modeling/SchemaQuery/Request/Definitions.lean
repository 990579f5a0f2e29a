import SchemaQuery.MySql.DataType
import SchemaQuery.Request

/-! The columns that a request defines.  Tables are created from a table value or from definitions,
where one text may hold several of them. -/

namespace SchemaQuery.Request

/-- The error that a creation has nothing to take its columns from. -/
def noColumns : Error := .internal (.without "create table" "columns")

/-- The references of a payload that creates a table, one for each definition. -/
def definitions : Fields → Except Error (List ColumnRef)
  | .column reference => reference.splitDefinitions
  | .columns references => (references.mapM ColumnRef.splitDefinitions).map List.flatten
  | _ => .error noColumns

def plannedColumns (request : Request) : Except Error (List Column) :=
  match request.table, request.fields with
  | .byValue table, .nothing => .ok table.columns
  | _, .column _ | _, .columns _ => do (← definitions request.fields).mapM ColumnRef.toColumn
  | _, _ => .error noColumns

/-- Refuses a column whose type the engine does not know. -/
def checkType (column : Column) : Except Error Unit :=
  if MySql.isKnownType column.type then .ok ()
  else .error (.shape (.unknownType column.type column.name))

/-- Refuses a reference that does not define a column of a known type. -/
def checkDefinition (reference : ColumnRef) : Except Error Unit := do
  checkType (← reference.toColumn)

end SchemaQuery.Request
