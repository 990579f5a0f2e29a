import SchemaQuery.Request.Definitions

/-! The shape of a request: whether its fields and modifiers are of the kind that its method takes.
None of these checks looks at the catalog, so a fault of shape does not depend on the schema. -/

namespace SchemaQuery.Request

/-- The error that a method does not take such fields. -/
def wrongFields (method : Method) (fields : Fields) : Error :=
  .shape (.wrongFields method.keyword fields.shape)

/-- Inserts and updates take one or more values. -/
def checkValues (method : Method) (fields : Fields) : Except Error Unit :=
  match fields with
  | .values [] => .error (.shape (.noValues method.keyword))
  | .values _ => .ok ()
  | _ => .error (wrongFields method fields)

/-- Renaming takes a name that is not blank. -/
def checkNewName : Fields → Except Error Unit
  | .column (.byName name) =>
    if (Text.trim name).isEmpty then .error (.shape .renameTarget) else .ok ()
  | _ => .error (.shape .renameTarget)

/-- Creating takes a table with columns, or definitions; every column has a known type. -/
def checkCreation (table : TableRef) (fields : Fields) : Except Error Unit :=
  match table, fields with
  | .byValue table, .nothing =>
    if table.columns.isEmpty then .error (.shape (.noColumns table.name))
    else table.columns.forM checkType
  | _, .column _ | _, .columns _ => do
    let references ← definitions fields
    if references.isEmpty then throw (.shape .noDefinitions)
    references.forM checkDefinition
  | _, _ => .error (.shape .createPayload)

/-- Altering takes a column and its new definition. -/
def checkAlteration (fields : Fields) (modifiers : Modifiers) : Except Error Unit :=
  match fields with
  | .column _ =>
    match modifiers.newDefinition with
    | some new => checkDefinition new
    | none => .error (.shape .alterTarget)
  | .change _ new => checkDefinition new
  | _ => .error (wrongFields .alterColumn fields)

/-- Adding a constraint takes a column; a foreign key also refers to a column of another table. -/
def checkAddition (kind : ConstraintKind) (fields : Fields) (modifiers : Modifiers) :
    Except Error Unit :=
  match fields with
  | .column _ =>
    if kind = .foreign then
      match modifiers.foreign with
      | some foreign => foreign.splitQualified.map fun _ => ()
      | none => .error (.shape .foreignMissing)
    else .ok ()
  | _ => .error (wrongFields (.addConstraint kind) fields)

/-- Whether the fields are of the kind that the method takes. -/
def checkFields (method : Method) (request : Request) : Except Error Unit :=
  let fields := request.fields
  match method with
  | .insert | .update => checkValues method fields
  | .renameTable => checkNewName fields
  | .dropColumn =>
    match fields with
    | .column _ => .ok ()
    | _ => .error (wrongFields method fields)
  | .createTable _ _ => checkCreation request.table fields
  | .addColumn =>
    match fields with
    | .column reference => checkDefinition reference
    | _ => .error (wrongFields method fields)
  | .alterColumn => checkAlteration fields request.modifiers
  | .select | .distinct =>
    match fields with
    | .nothing | .all | .column _ | .columns _ => .ok ()
    | _ => .error (wrongFields method fields)
  | .count =>
    match fields with
    | .nothing | .all | .column _ => .ok ()
    | _ => .error (wrongFields method fields)
  | .addConstraint kind => checkAddition kind fields request.modifiers
  | .dropConstraint =>
    match fields with
    | .constraint _ => .ok ()
    | _ => .error (.shape .dropPayload)
  | .delete | .dropTable _ | .showTables | .describe | .truncate => .ok ()

/-- A predicate has to be a comparison. -/
def checkPredicate (method : Method) (modifiers : Modifiers) : Except Error Unit :=
  match modifiers.predicate with
  | some predicate =>
    if method.takesWhere && !predicate.isComparison then
      .error (.shape (.whereOperand predicate.found))
    else .ok ()
  | none => .ok ()

/-- Every check of the shape of a request. -/
def checkShape (method : Method) (request : Request) : Except Error Unit := do
  checkFields method request
  checkPredicate method request.modifiers

end SchemaQuery.Request
