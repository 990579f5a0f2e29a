import SchemaQuery.Column.Key
import SchemaQuery.Value

/-! What can go wrong, as causes.  Every cause belongs to one kind of error; `Error.message` is the
only place where a cause gets its wording. -/

namespace SchemaQuery

/-- The longest name a constraint may have, in characters. -/
def maxNameLength : Nat := 64

/-- Why words do not name a method. -/
inductive MethodFault
  | unknown (words : String)
  | severalConstraints (words : String)
deriving DecidableEq

/-- Why a table cannot be used. -/
inductive TableFault
  | unknown (name : String)
  | unnamed
  | exists (name : String)
deriving DecidableEq

/-- Why the fields or modifiers of a request have the wrong shape. -/
inductive ShapeFault
  | wrongFields (method found : String)
  | noValues (method : String)
  | renameTarget
  | noColumns (table : String)
  | noDefinitions
  | createPayload
  | alterTarget
  | foreignMissing
  | dropPayload
  | whereOperand (found : String)
  | joinOperand (found : String)
  | unknownType (type column : String)
  | unqualified (name : String)
  | unowned (column : String)
deriving DecidableEq

/-- Why a column definition cannot be read. -/
inductive DefinitionFault
  | missingName (definition : String)
  | missingType (column : String)
  | nullExpected (definition : String)
  | missingDefault (definition : String)
  | unexpectedToken (token definition : String)
  | unbalanced (text : String)
  | unterminated (text : String)
  | noDefinitions (text : String)
deriving DecidableEq

/-- Why well-formed fields do not fit the schema. -/
inductive SchemaFault
  | duplicateColumn (name : String)
  | missingColumn (name : String)
  | tableExists (name : String)
  | columnExists (table column : String)
  | limit (given : Int64)
  | unknownColumnIn (column table : String)
  | unknownColumn (name : String)
  | unknownForeignTable (name : String)
  | unknownForeignColumn (name : String)
  | unowned (column : String)
  | notAttached (constraint table : String)
deriving DecidableEq

/-- Why a key does not allow a value, or cannot exist. -/
inductive ConstraintFault
  | nullablePrimary (column : String)
  | notUnique (value : Value) (column : ColumnKey)
  | ownTable (reference : String)
  | notAKey (value : Value) (column : ColumnKey)
  | noIndex (column : ColumnKey)
deriving DecidableEq

/-- What is missing when a request is used without having been checked, or an answer has not the
form that its statement promises.  A request without a part is told by what needed it. -/
inductive InternalFault
  | noTable (method : String)
  | without (use part : String)
  | noValues
  | uncheckedFields (method : String)
  | describeField
  | describeType (column : String)
  | emptyListing
deriving DecidableEq

/-- An error of the library. -/
inductive Error
  | connectionNotOpen
  | method (fault : MethodFault)
  | table (fault : TableFault)
  | shape (fault : ShapeFault)
  | definition (fault : DefinitionFault)
  | schema (fault : SchemaFault)
  | constraint (fault : ConstraintFault)
  | nameTooLong (name : String)
  | executor (text : String)
  | internal (fault : InternalFault)
  | unchecked (use : String) (cause : Error)
deriving DecidableEq

def MethodFault.text : MethodFault → String
  | .unknown words => words
  | .severalConstraints words => s!"{words}: must not contain multiple constraints"

def TableFault.text : TableFault → String
  | .unknown name => s!"unknown table: {name}"
  | .unnamed => "empty table name"
  | .exists name => s!"table `{name}` already exists"

def ShapeFault.text : ShapeFault → String
  | .wrongFields method found => s!"{method} does not accept {found} as fields"
  | .noValues method => s!"{method} requires at least one value"
  | .renameTarget => "rename table expects the new table name"
  | .noColumns table => s!"table `{table}` has no columns"
  | .noDefinitions => "create table expects at least one column definition"
  | .createPayload => "create table expects a table or column definitions"
  | .alterTarget => "alter column requires a `to` definition"
  | .foreignMissing => "add foreign requires a `foreign` column"
  | .dropPayload => "drop constraint expects a constraint, not a column reference"
  | .whereOperand found => s!"where must be a comparison, got {found}"
  | .joinOperand found => s!"join predicate must be a comparison, got {found}"
  | .unknownType type column => s!"unknown mysql column type `{type}` for {column}"
  | .unqualified name => s!"expected a table-qualified column, got `{name}`"
  | .unowned column => s!"column {column} has no owning table"

def DefinitionFault.text : DefinitionFault → String
  | .missingName definition => s!"missing column name in `{definition}`"
  | .missingType column => s!"missing type for column `{column}`"
  | .nullExpected definition => s!"expected `null` after `not` in `{definition}`"
  | .missingDefault definition => s!"missing value after `default` in `{definition}`"
  | .unexpectedToken token definition => s!"unexpected token `{token}` in `{definition}`"
  | .unbalanced text => s!"unbalanced `)` in `{text}`"
  | .unterminated text => s!"unterminated quote or bracket in `{text}`"
  | .noDefinitions text => s!"no column definitions in `{text}`"

def SchemaFault.text : SchemaFault → String
  | .duplicateColumn name => s!"duplicate column name: {name}"
  | .missingColumn name => s!"missing required column {name}"
  | .tableExists name => s!"table `{name}` already exists"
  | .columnExists table column => s!"column {table}.{column} already exists"
  | .limit given => "limit must be a positive integer, got " ++ toString given.toInt
  | .unknownColumnIn column table => s!"unknown column {column} in {table}"
  | .unknownColumn name => s!"unknown column {name}"
  | .unknownForeignTable name => s!"unknown foreign table: {name}"
  | .unknownForeignColumn name => s!"unknown foreign column: {name}"
  | .unowned column => s!"column {column} has no owning table"
  | .notAttached constraint table => s!"constraint `{constraint}` is not attached to {table}"

def ConstraintFault.text : ConstraintFault → String
  | .nullablePrimary column => s!"primary key may only be created if {column} is NOT NULL"
  | .notUnique value column => value.display ++ " is not unique in " ++ column.qualified
  | .ownTable reference => s!"cannot foreign key a table on itself: {reference}"
  | .notAKey value column => value.display ++ " is not a key of " ++ column.qualified
  | .noIndex column => "foreign column " ++ column.qualified ++ " has no index"

def InternalFault.text : InternalFault → String
  | .noTable method => s!"{method} has no table"
  | .without use part => s!"{use} without {part}"
  | .noValues => "expected a value mapping"
  | .uncheckedFields method => s!"{method} called with fields that were never validated"
  | .describeField => "describe row without `Field`"
  | .describeType column => s!"describe row for `{column}` without `Type`"
  | .emptyListing => "empty row in table listing"

namespace Error

def message : Error → String
  | .connectionNotOpen => "connection is not open"
  | .method fault => "invalid method: " ++ fault.text
  | .table fault => "invalid table reference: " ++ fault.text
  | .shape fault => "structural field error: " ++ fault.text
  | .definition fault => "invalid column definition: " ++ fault.text
  | .schema fault => "semantic field error: " ++ fault.text
  | .constraint fault => "constraint violation: " ++ fault.text
  | .nameTooLong name => s!"name `{name}` is longer than {maxNameLength} characters"
  | .executor text => "executor error: " ++ text
  | .internal fault => "internal error: " ++ fault.text
  | .unchecked use cause => "internal error: " ++ (use ++ ": " ++ message cause)

/-- What the error says about its cause, without naming the kind. -/
def detail : Error → String
  | .connectionNotOpen => ""
  | .method fault => fault.text
  | .table fault => fault.text
  | .shape fault => fault.text
  | .definition fault => fault.text
  | .schema fault => fault.text
  | .constraint fault => fault.text
  | .nameTooLong name => name
  | .executor text => text
  | .internal fault => fault.text
  | .unchecked use cause => use ++ ": " ++ cause.message

def label : Error → String
  | .connectionNotOpen => "ConnectionNotOpen"
  | .method _ => "InvalidMethod"
  | .table _ => "InvalidTableReference"
  | .shape _ => "StructuralField"
  | .definition _ => "InvalidDefinition"
  | .schema _ => "SemanticField"
  | .constraint _ => "ConstraintViolation"
  | .nameTooLong _ => "NameTooLong"
  | .executor _ => "Executor"
  | .internal _ | .unchecked _ _ => "Internal"

/-- Errors about the shape of a request, which are reported before any other. -/
def isStructural : Error → Bool
  | .shape _ | .definition _ => true
  | _ => false

def isSemantic : Error → Bool
  | .schema _ | .constraint _ | .nameTooLong _ => true
  | _ => false

end Error

/-- Refuses a name that is longer than `maxNameLength` characters. -/
def checkNameLength (name : String) : Except Error Unit :=
  if maxNameLength < name.length then .error (.nameTooLong name) else .ok ()

end SchemaQuery
