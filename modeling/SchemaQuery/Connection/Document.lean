import SchemaQuery.Connection.Settings
import SchemaQuery.Toml.Document

/-! Reading settings from a TOML file.  The file has to name the user and the database; everything
else has a default, and names that are no setting are ignored. -/

namespace SchemaQuery.Connection

/-- The text of a setting, if the file has it; any other sort of value is refused. -/
def textSetting (entries : List Toml.Entry) (name : String) : Option (Option String) :=
  match entries.lookup name with
  | none => some none
  | some (.text s) => some (some s)
  | some _ => none

/-- The port, if the file has it; it has to be a whole number of 16 bits. -/
def portSetting (entries : List Toml.Entry) : Option (Option UInt16) :=
  match entries.lookup "port" with
  | none => some none
  | some (.integer n) =>
    if 0 ≤ n.toInt ∧ n.toInt < UInt16.size then some (some (UInt16.ofNat n.toInt.toNat)) else none
  | some _ => none

def Settings.ofEntries? (entries : List Toml.Entry) : Option Settings := do
  let user ← (← textSetting entries "user")
  let database ← (← textSetting entries "database")
  let plain : Settings := { user, database }
  return { plain with
    host := (← textSetting entries "host").getD plain.host
    port := (← portSetting entries).getD plain.port
    password := ← textSetting entries "password"
    charset := (← textSetting entries "charset").getD plain.charset }

def Settings.ofToml? (text : String) : Option Settings := do Settings.ofEntries? (← Toml.read? text)

end SchemaQuery.Connection
