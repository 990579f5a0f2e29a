import SchemaQuery.Text.Quoted

/-! Settings of a connection: where the server is, who connects, and to which database. -/

namespace SchemaQuery.Connection

/-- Where and how to connect. -/
structure Settings where
  host : String := "localhost"
  port : UInt16 := 3306
  user : String
  password : Option String := none
  database : String
  charset : String := "utf8mb4"
deriving DecidableEq

namespace Settings

def masked (settings : Settings) : Settings :=
  { settings with password := settings.password.map fun _ => "***" }

/-- The URL of the connection, with the password masked. -/
def redactedUrl (settings : Settings) : String :=
  let credentials := settings.user ++ (settings.masked.password.elim "" fun stars => ":" ++ stars)
  "mysql://" ++ credentials ++ "@" ++ settings.host ++ ":" ++ toString settings.port.toNat ++ "/" ++
    settings.database

/-- The settings for diagnostics, with the password masked. -/
def diagnostic (settings : Settings) : String :=
  let password := settings.masked.password.elim "None" fun stars =>
    "Some(" ++ Text.quoted stars ++ ")"
  "ConnectionConfig \x7b host: " ++ Text.quoted settings.host ++
    ", port: " ++ toString settings.port.toNat ++
    ", user: " ++ Text.quoted settings.user ++
    ", password: " ++ password ++
    ", database: " ++ Text.quoted settings.database ++
    ", charset: " ++ Text.quoted settings.charset ++ " \x7d"

end Settings

end SchemaQuery.Connection
