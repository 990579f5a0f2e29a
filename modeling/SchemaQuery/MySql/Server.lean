import SchemaQuery.Connection.Settings

/-! Servers, as a client meets them.  A server is a table of two operations on a state of any type:
taking a connection, and answering a statement.  Cells come as bytes under columns that have a name
and a type. -/

namespace SchemaQuery.MySql

/-- Why a server does not do what a client wants of it: the client cannot ask for the character set
of its settings, the server says so itself, or it cannot be reached. -/
inductive ServerFault
  | unknownCharset (name : String)
  | refused (code : Nat) (state message : String)
  | unreachable (reason : String)
deriving DecidableEq

def ServerFault.text : ServerFault → String
  | .unknownCharset name => "error with configuration: unsupported MySQL charset: " ++ name
  | .refused code state message =>
    "error returned from database: " ++ toString code ++ " (" ++ state ++ "): " ++ message
  | .unreachable reason => "error communicating with database: " ++ reason

/-- A column of an answer. -/
structure ResultColumn where
  name : String
  type : String
deriving DecidableEq

/-- The answer to a statement: nothing but that it is done, or rows.  A cell without bytes is
NULL. -/
inductive Reply
  | done
  | rows (columns : List ResultColumn) (cells : List (List (Option (List UInt8))))
deriving DecidableEq

/-- The operations of a server. -/
structure Server (σ : Type) where
  accept : Connection.Settings → StateM σ (Except ServerFault Unit)
  answer : String → StateM σ (Except ServerFault Reply)

/-- The server of a machine without a network: no connection reaches it. -/
def Server.unreachable : Server Unit where
  accept _ := pure (.error (.unreachable "Network is unreachable (os error 101)"))
  answer _ := pure (.error (.unreachable "Network is unreachable (os error 101)"))

end SchemaQuery.MySql
