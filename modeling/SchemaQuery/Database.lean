import SchemaQuery.Engine
import SchemaQuery.Output
import SchemaQuery.Request.Statement

/-! Databases: one connection to an engine and a registry of table snapshots.  The registry is read
from the engine when the connection opens and dropped when it closes. -/

namespace SchemaQuery

/-- A database: whether it holds a connection, the registry of its tables, and the state of its
engine. -/
structure Database (ε : Type) where
  name : String
  attached : Bool := false
  tables : List Table := []
  engine : ε

variable {ε α : Type}

namespace Database

/-- Whether there is a connection and it is open. -/
def isOpen (engine : Engine ε) (database : Database ε) : Bool :=
  database.attached && engine.isOpen database.engine

def tableNames (database : Database ε) : List String := database.tables.map Table.name

def table? (database : Database ε) (name : String) : Option Table :=
  findTable? database.tables name

/-- The tables that requests are checked against. -/
def catalog (engine : Engine ε) (database : Database ε) : Catalog :=
  ⟨database.isOpen engine, database.tables⟩

/-- The table of that name, or the error that there is none. -/
def requireTable (name : String) : Action (Database ε) Table := do
  match (← get).table? name with
  | some table => pure table
  | none => throw (.table (.unknown name))

/-- An operation of the engine, as an operation of the database. -/
def onEngine (operation : Action ε α) : Action (Database ε) α := do
  let database ← get
  let (result, state) := operation.run.run database.engine
  set { database with engine := state }
  result

/-- An operation of the engine that needs an open connection. -/
def whenOpen (engine : Engine ε) (operation : Action ε α) : Action (Database ε) α := do
  if (← get).isOpen engine then onEngine operation else throw .connectionNotOpen

def run (engine : Engine ε) (text : String) (options : ExecOptions) :
    Action (Database ε) (Option (List Row)) :=
  whenOpen engine (engine.execute text options)

/-- Runs a statement of a method that answers with names. -/
def runForNames (engine : Engine ε) (method : Method) (text : String) :
    Action (Database ε) (List String) := do
  let answer ← run engine text { expectsRows := true }
  let output ← Output.ofAnswer method none answer
  return output.toNames

/-- The table as the engine describes it now. -/
def describeTable (engine : Engine ε) (name : String) : Action (Database ε) Table := do
  Table.ofDefinitions name (← runForNames engine .describe (describeText name))

/-- Fills the registry with the tables that the engine lists. -/
def loadRegistry (engine : Engine ε) : Action (Database ε) Unit := do
  let names ← runForNames engine .showTables showTablesText
  let tables ← names.mapM (describeTable engine)
  modify ({ · with tables })

/-- Gives up the connection and the registry, whatever the engine says. -/
def detach (engine : Engine ε) : Action (Database ε) Unit := do
  let database ← get
  set { database with attached := false, tables := [] }
  if database.attached then tryCatch (onEngine engine.close) fun _ => pure ()

/-- Opens a connection and loads the registry, unless there is an open one.  A connection whose
registry cannot be loaded is given up. -/
def connect (engine : Engine ε) : Action (Database ε) Unit := do
  if (← get).isOpen engine then return ()
  onEngine engine.connect
  modify ({ · with attached := true })
  tryCatch (loadRegistry engine) fun e => do
    detach engine
    throw e

/-- Closes the connection, if there is one, and drops the registry. -/
def close (engine : Engine ε) : Action (Database ε) Unit := do
  let database ← get
  if database.attached then
    set { database with attached := false, tables := [] }
    onEngine engine.close

def reconnect (engine : Engine ε) : Action (Database ε) Unit := do
  close engine
  connect engine

def commit (engine : Engine ε) : Action (Database ε) Unit := whenOpen engine engine.commit

def rollback (engine : Engine ε) : Action (Database ε) Unit := whenOpen engine engine.rollback

end Database

end SchemaQuery
