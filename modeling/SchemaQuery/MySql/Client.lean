import SchemaQuery.Engine
import SchemaQuery.MySql.Cell
import SchemaQuery.MySql.Charset
import SchemaQuery.MySql.Server

/-! Clients of a server.  A client holds at most one connection, on which nothing is permanent until
it is committed, and is an engine: it sends statements and decodes the cells of the answers. -/

namespace SchemaQuery.MySql

/-- The types whose cells are bytes; the cells of every other type are text. -/
def binaryTypes : List String :=
  ["BINARY", "VARBINARY", "TINYBLOB", "BLOB", "MEDIUMBLOB", "LONGBLOB", "BIT", "GEOMETRY"]

def utf8FaultText (fault : Text.Utf8.Fault) : String :=
  match fault.length with
  | some length => s!"invalid utf-8 sequence of {length} bytes from index {fault.position}"
  | none => s!"incomplete utf-8 byte sequence from index {fault.position}"

/-- The value of a cell that has bytes, in the column at a place. -/
def decodeBytes (place : Nat) (type : String) (data : List UInt8) : Except Error Value :=
  if binaryTypes.contains type then .ok (.bytes data)
  else
    match Text.Utf8.decode data with
    | .ok text => .ok (valueOfText type text)
    | .error fault =>
      .error (.executor (s!"error occurred while decoding column {place}: " ++ utf8FaultText fault))

/-- The values of cells under the columns from a place on. -/
def decodeCells (place : Nat) :
    List ResultColumn → List (Option (List UInt8)) → Except Error (List (String × Value))
  | column :: columns, cell :: cells => do
    let value ← cell.elim (.ok .null) (decodeBytes place column.type)
    return (column.name, value) :: (← decodeCells (place + 1) columns cells)
  | _, _ => .ok []

def decodeRow (columns : List ResultColumn) (cells : List (Option (List UInt8))) :
    Except Error Row :=
  (decodeCells 0 columns cells).map Row.mk

/-- The rows of a reply, of which at most `maxRows` are decoded. -/
def Reply.decode (reply : Reply) (maxRows : Option Nat) : Except Error (List Row) :=
  match reply with
  | .done => .ok []
  | .rows columns cells => (maxRows.elim cells cells.take).mapM (decodeRow columns)

/-- A client: the state of its server, whether it is connected, and the statements it has sent. -/
structure Client (σ : Type) where
  server : σ
  connected : Bool := false
  sent : List String := []

namespace Client

variable {σ α : Type}

/-- Whether a client can connect with these settings, as far as it can tell before it asks the
server. -/
def checkSettings (settings : Connection.Settings) : Except ServerFault Unit :=
  if isKnownCharset settings.charset then .ok () else .error (.unknownCharset settings.charset)

def serverError (fault : ServerFault) : Error := .executor fault.text

/-- An operation of the server, whose refusal is an error of the engine. -/
def onServer (operation : StateM σ (Except ServerFault α)) : Action (Client σ) α := do
  let client ← get
  let (result, server) := operation.run client.server
  set { client with server }
  match result with
  | .ok x => pure x
  | .error fault => throw (serverError fault)

def send (server : Server σ) (text : String) : Action (Client σ) Reply := do
  modify fun client => { client with sent := client.sent ++ [text] }
  onServer (server.answer text)

/-- Sends a statement on the connection, if there is one. -/
def request (server : Server σ) (text : String) : Action (Client σ) Reply := do
  if (← get).connected then send server text else throw .connectionNotOpen

/-- Connects and makes the server wait for a commit before a change is permanent.  Settings that
cannot work never reach the server. -/
def connect (server : Server σ) (settings : Connection.Settings) : Action (Client σ) Unit := do
  (checkSettings settings).mapError serverError
  onServer (server.accept settings)
  discard (send server "set autocommit = 0")
  modify ({ · with connected := true })

/-- Sends a statement and gives its rows, if it is expected to have any. -/
def execute (server : Server σ) (text : String) (options : ExecOptions) :
    Action (Client σ) (Option (List Row)) := do
  let reply ← request server text
  if options.expectsRows then return some (← reply.decode options.maxRows) else return none

end Client

/-- The client of a server as an engine. -/
def Server.engine {σ : Type} (server : Server σ) (settings : Connection.Settings) :
    Engine (Client σ) where
  isOpen := Client.connected
  connect := Client.connect server settings
  execute := Client.execute server
  commit := discard (Client.request server "commit")
  rollback := discard (Client.request server "rollback")
  close := modify ({ · with connected := false })

end SchemaQuery.MySql
