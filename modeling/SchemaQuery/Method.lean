import SchemaQuery.Error
import SchemaQuery.Text.Blank
import SchemaQuery.Text.Case

/-! Methods: what a request asks for.  A method is spelled by words in any order and letter case,
and words without a meaning are ignored. -/

namespace SchemaQuery

/-- The kinds of constraints that a request can add. -/
inductive ConstraintKind
  | index
  | unique
  | primary
  | foreign
deriving DecidableEq

namespace ConstraintKind

def keyword : ConstraintKind → String
  | .index => "index"
  | .unique => "unique"
  | .primary => "primary"
  | .foreign => "foreign"

/-- The kind of key; a foreign key is none. -/
def keyKind? : ConstraintKind → Option KeyKind
  | .index => some .index
  | .unique => some .unique
  | .primary => some .primary
  | .foreign => none

def all : List ConstraintKind := [.index, .unique, .primary, .foreign]

end ConstraintKind

/-- What a request asks for.  A guarded table creation leaves an existing table alone even when the
request allows to replace it. -/
inductive Method
  | select
  | distinct
  | count
  | insert
  | update
  | delete
  | showTables
  | describe
  | createTable (temporary guarded : Bool)
  | dropTable (temporary : Bool)
  | renameTable
  | truncate
  | addColumn
  | dropColumn
  | alterColumn
  | addConstraint (kind : ConstraintKind)
  | dropConstraint
deriving DecidableEq

namespace Method

/-- The method of a column: `add`, `drop`, or a word for changing it. -/
def ofColumnWords? (has : String → Bool) : Option Method :=
  if has "add" || has "create" then some .addColumn
  else if has "drop" then some .dropColumn
  else if has "alter" || has "change" || has "modify" then some .alterColumn
  else none

def ofRowWords? (has : String → Bool) : Option Method :=
  if has "distinct" then some .distinct
  else if has "count" then some .count
  else if has "select" then some .select
  else if has "insert" then some .insert
  else if has "update" then some .update
  else if has "delete" then some .delete
  else none

/-- The method that a set of words spells; `text` is what they were taken from. -/
def ofWords (text : String) (has : String → Bool) : Except MethodFault Method :=
  let adds := has "add" || has "create"
  let orUnknown (method : Option Method) : Except MethodFault Method :=
    match method with
    | some method => .ok method
    | none => .error (.unknown text)
  if has "show" && has "tables" then .ok .showTables
  else if has "describe" then .ok .describe
  else if has "truncate" then .ok .truncate
  else if has "rename" || (has "move" && has "table") then .ok .renameTable
  else if has "constraint" && has "drop" then .ok .dropConstraint
  else if has "column" then orUnknown (ofColumnWords? has)
  else if has "table" && adds then
    .ok (.createTable (has "temporary") (has "if" && has "exists"))
  else if has "table" && has "drop" then .ok (.dropTable (has "temporary"))
  else if adds then
    match ConstraintKind.all.filter fun kind => has kind.keyword with
    | [kind] => .ok (.addConstraint kind)
    | [] => .error (.unknown text)
    | _ => .error (.severalConstraints text)
  else orUnknown (ofRowWords? has)

def ofText (text : String) : Except Error Method :=
  let words := Text.words (Text.lower text)
  (ofWords text fun word => words.contains word).mapError .method

def keyword : Method → String
  | .select => "select"
  | .distinct => "distinct"
  | .count => "count"
  | .insert => "insert"
  | .update => "update"
  | .delete => "delete"
  | .showTables => "show tables"
  | .describe => "describe"
  | .createTable _ _ => "create table"
  | .dropTable _ => "drop table"
  | .renameTable => "rename table"
  | .truncate => "truncate"
  | .addColumn => "add column"
  | .dropColumn => "drop column"
  | .alterColumn => "alter column"
  | .addConstraint kind => "add " ++ kind.keyword
  | .dropConstraint => "drop constraint"

/-- Whether the schema of the table is different afterwards. -/
def changesSchema : Method → Bool
  | .createTable _ _ | .dropTable _ | .renameTable | .addColumn | .dropColumn | .alterColumn
  | .addConstraint _ | .dropConstraint => true
  | _ => false

/-- Whether the engine answers with rows. -/
def returnsRows : Method → Bool
  | .select | .distinct | .count | .showTables | .describe => true
  | _ => false

/-- Whether the table has to exist. -/
def needsTable : Method → Bool
  | .createTable _ _ | .showTables => false
  | _ => true

/-- Whether rows are read from the table. -/
def readsRows : Method → Bool
  | .select | .distinct | .count => true
  | _ => false

/-- Whether the method takes a predicate. -/
def takesWhere : Method → Bool
  | .select | .distinct | .count | .update | .delete => true
  | _ => false

/-- Whether the method groups rows. -/
def takesGroupBy : Method → Bool := readsRows

/-- Whether the method orders rows. -/
def takesOrderBy : Method → Bool
  | .select | .distinct => true
  | _ => false

/-- Whether the method takes a limit. -/
def takesLimit : Method → Bool := takesOrderBy

end Method

end SchemaQuery
