import SchemaQuery.CommandLine.Command
import SchemaQuery.Connection.Document
import SchemaQuery.Connection.Url
import SchemaQuery.MySql.Client

/-! Whole runs of the program: from its arguments to its exit code and the two texts that it
writes. -/

namespace SchemaQuery

/-- The error for diagnostics: the name of its kind, and what it says in quotes. -/
def Error.diagnostic : Error → String
  | .connectionNotOpen => "ConnectionNotOpen"
  | .nameTooLong name =>
    "NameTooLong \x7b name: " ++ Text.quoted name ++ ", max: " ++ toString maxNameLength ++ " \x7d"
  | e => e.label ++ "(" ++ Text.quoted e.detail ++ ")"

namespace CommandLine

/-- Why a run fails. -/
inductive Failure
  | noPlace
  | twoPlaces
  | badUrl (fault : Connection.UrlFault) (url : String)
  | noFile
  | badFile
  | error (cause : Error)

def Failure.diagnostic : Failure → String
  | .noPlace => "InvalidConfig(" ++ Text.quoted "--config or --url is required" ++ ")"
  | .twoPlaces => "InvalidConfig(" ++ Text.quoted "use either --config or --url" ++ ")"
  | .badUrl fault url => "Config(Url(" ++ Text.quoted (fault.detail url) ++ "))"
  | .noFile =>
    "Config(Io(Os \x7b code: 2, kind: NotFound, message: " ++
      Text.quoted "No such file or directory" ++ " \x7d))"
  | .badFile => "Config(Toml)"
  | .error cause => "Core(" ++ cause.diagnostic ++ ")"

/-- The exit code of a run and what it writes. -/
structure Report where
  code : Nat
  output : String := ""
  errors : String := ""
deriving DecidableEq

/-- What `--help` shows. -/
def helpText : String :=
  "Usage: relata [--config FILE | --url URL] [--log-json] COMMAND\n\n" ++
  "Commands:\n" ++
  "  tables          list table names\n" ++
  "  describe TABLE  print the column definitions of a table\n" ++
  "  select TABLE    select rows [--column NAME]... [--limit N] [--order-by NAME] [--distinct]\n" ++
  "  count TABLE     count rows\n"

/-- What `--version` shows. -/
def versionText : String := "relata 0.1.0\n"

/-- The report when there is no command to run. -/
def Stop.report : Stop → Report
  | .help => { code := 0, output := helpText }
  | .version => { code := 0, output := versionText }
  | .usage => { code := 2, errors := helpText }

/-- The report of a failure, after what was shown before it. -/
def Failure.report (failure : Failure) (output : String) : Report :=
  { code := 1, output, errors := "Error: " ++ failure.diagnostic ++ "\n" }

/-- The settings that an invocation names.  `files` gives the contents of the files that exist. -/
def Invocation.settings (files : String → Option String) (invocation : Invocation) :
    Except Failure Connection.Settings :=
  match invocation.config, invocation.url with
  | some path, none =>
    match files path with
    | some contents => (Connection.Settings.ofToml? contents).elim (.error .badFile) .ok
    | none => .error .noFile
  | none, some url => (Connection.Settings.ofUrl url).mapError fun fault => .badUrl fault url
  | some _, some _ => .error .twoPlaces
  | none, none => .error .noPlace

def sessionReport (shown : Option Json) (error : Option Error) : Report :=
  let output := shown.elim "" fun document => document.pretty ++ "\n"
  match error with
  | some cause => Failure.report (.error cause) output
  | none => { code := 0, output }

/-- Runs the program against a server.  What comes out is the report, and the client if one was
made. -/
def run {σ : Type} (server : MySql.Server σ) (state : σ) (files : String → Option String)
    (arguments : List String) : Report × Option (MySql.Client σ) :=
  match Invocation.ofArguments arguments with
  | .error stop => (stop.report, none)
  | .ok invocation =>
    match invocation.settings files with
    | .error failure => (failure.report "", none)
    | .ok settings =>
      let database : Database (MySql.Client σ) :=
        { name := settings.database, engine := { server := state } }
      let ((shown, error), database) :=
        (invocation.command.session (server.engine settings)).run database
      (sessionReport shown error, some database.engine)

end CommandLine

end SchemaQuery
