import SchemaQuery.Engine
import SchemaQuery.Request.Statement

/-! Engines that follow a script: what they answer to each statement is written down beforehand, and
so is which of their operations fail. -/

namespace SchemaQuery

/-- The answer that a script has for a statement; `rows none` is an answer without rows. -/
inductive ScriptedAnswer
  | rows (rows : Option (List Row))
  | error (message : String)

/-- A script, and whether the engine that follows it is open. -/
structure Script where
  answers : List (String × ScriptedAnswer) := []
  isOpen : Bool := false
  failConnect : Bool := false
  failCommit : Bool := false
  failClose : Bool := false
  keepAll : Bool := false

namespace Script

def forget (script : Script) (text : String) : Script :=
  { script with answers := script.answers.filter fun entry => entry.1 != text }

/-- The script with an answer to a statement, in place of the one that it had. -/
def answer (script : Script) (text : String) (given : ScriptedAnswer) : Script :=
  { script with answers := (text, given) :: (script.forget text).answers }

def listTables (script : Script) (names : List Value) : Script :=
  script.answer showTablesText (.rows (some (names.map fun name => ⟨[("Tables_in_db", name)]⟩)))

def descriptionColumns : List String := ["Field", "Type", "Null", "Key", "Default", "Extra"]

/-- The statement under which a script keeps the description of a table.  It holds the name as the
script writes it, so that a backtick in a name has to be doubled there as well. -/
def descriptionText (written : String) : String := "describe `" ++ written ++ "`;"

/-- The script with an answer to the description of a table, by the written form of its name. -/
def describe (script : Script) (written : String) (columns : List (List Value)) : Script :=
  script.answer (descriptionText written)
    (.rows (some (columns.map fun cells => ⟨descriptionColumns.zip cells⟩)))

/-- Answers a statement.  A statement without an answer has no rows. -/
def execute (text : String) (options : ExecOptions) : Action Script (Option (List Row)) := do
  let script ← get
  match script.answers.lookup text, options.expectsRows with
  | some (.error message), _ => throw (.executor message)
  | _, false => return none
  | some (.rows rows), true =>
    return rows.map fun all => if script.keepAll then all else options.maxRows.elim all all.take
  | none, true => return some []

def engine : Engine Script where
  isOpen := Script.isOpen
  connect := do
    if (← get).failConnect then throw (.executor "connect failed")
    modify ({ · with isOpen := true })
  execute := execute
  commit := do if (← get).failCommit then throw (.executor "commit failed")
  rollback := pure ()
  close := do
    modify ({ · with isOpen := false })
    if (← get).failClose then throw (.executor "close failed")

end Script

end SchemaQuery
