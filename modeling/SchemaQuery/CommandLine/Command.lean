import SchemaQuery.CommandLine.Arguments
import SchemaQuery.Database.Operations

/-! What the commands do with a database, and the JSON document that each of them shows. -/

namespace SchemaQuery.CommandLine

variable {ε : Type}

/-- The fields that the columns of a selection ask for; all when there are none. -/
def selectedFields (columns : List String) : Fields :=
  if columns.isEmpty then .all else .columns (columns.map .byName)

def textList (texts : List String) : Json := .array (texts.map .string)

def Command.run (engine : Engine ε) : Command → Action (Database ε) Json
  | .tables => do return textList (← get).tableNames
  | .describe table => do
    let found ← Database.requireTable table
    return textList (found.columns.map Column.definition)
  | .select table columns limit order distinct => do
    let modifiers : Modifiers := { limit, orderBy := order.map .byName }
    let read := if distinct then Database.distinct engine else Database.select engine
    let rows ← read (.byName table) (selectedFields columns) modifiers
    return .array (rows.map Row.toJson)
  | .count table => do return (← Database.count engine (.byName table) {}).toJson

/-- Connects, runs a command and closes.  What the command shows is shown even when closing fails,
but then the error is that of closing. -/
def Command.session (engine : Engine ε) (command : Command) :
    StateM (Database ε) (Option Json × Option Error) := do
  match ← (Database.connect engine).run with
  | .error e => return (none, some e)
  | .ok _ =>
    let shown ← (command.run engine).run
    match shown, ← (Database.close engine).run with
    | .ok document, .ok _ => return (some document, none)
    | .ok document, .error e => return (some document, some e)
    | .error _, .error e => return (none, some e)
    | .error e, .ok _ => return (none, some e)

end SchemaQuery.CommandLine
