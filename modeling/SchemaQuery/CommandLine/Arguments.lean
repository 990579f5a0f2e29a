import SchemaQuery.Number.Reader
import SchemaQuery.Text.Cut

/-! The arguments of the command line: `[options] command [options] [table]`.  Options about the
connection may stand before the command or behind it, where they count more.  An option that takes a
value has it behind an equals sign or as the next argument; behind `--` every argument is a plain
word. -/

namespace SchemaQuery.CommandLine

/-- Why the arguments are no command to run: they ask about the program, or they are wrong. -/
inductive Stop
  | help
  | version
  | usage
deriving DecidableEq

/-- What a command does. -/
inductive Command
  | tables
  | describe (table : String)
  | select (table : String) (columns : List String) (limit : Option Int64) (order : Option String)
      (distinct : Bool)
  | count (table : String)
deriving DecidableEq

/-- A command, and the options about the connection. -/
structure Invocation where
  config : Option String
  url : Option String
  command : Command
deriving DecidableEq

/-- What the arguments of one level have given: those before the command, or those behind it. -/
structure Given where
  config : Option String := none
  url : Option String := none
  logJson : Bool := false
  columns : List String := []
  limit : Option Int64 := none
  order : Option String := none
  distinct : Bool := false
  words : List String := []
deriving DecidableEq

/-- What may be given at a level. -/
structure Level where
  options : List String := ["config", "url"]
  flags : List String := ["log-json"]
  words : Nat := 0
  commands : List String := []

/-- The level before the command. -/
def Level.outer : Level := { commands := ["tables", "describe", "select", "count", "help"] }

/-- The level behind a command. -/
def Level.behind : String → Level
  | "select" => {
      options := ["config", "url", "column", "limit", "order-by"]
      flags := ["log-json", "distinct"]
      words := 1 }
  | "tables" => {}
  | _ => { words := 1 }

namespace Given

/-- The value of an option that may be given once. -/
def once {α : Type} (old : Option α) (new : Option α) : Except Stop (Option α) :=
  match old, new with
  | none, some x => .ok (some x)
  | _, _ => .error .usage

def takeOption (given : Given) (name value : String) : Except Stop Given := do
  match name with
  | "config" =>
    return { given with config := ← once given.config (if value.isEmpty then none else some value) }
  | "url" => return { given with url := ← once given.url (some value) }
  | "column" => return { given with columns := given.columns ++ [value] }
  | "limit" => return { given with limit := ← once given.limit (Number.readInt64? value.toList) }
  | "order-by" => return { given with order := ← once given.order (some value) }
  | _ => .error .usage

/-- Takes a flag, which may be given once. -/
def takeFlag (given : Given) (name : String) : Except Stop Given :=
  match name with
  | "log-json" => if given.logJson then .error .usage else .ok { given with logJson := true }
  | "distinct" => if given.distinct then .error .usage else .ok { given with distinct := true }
  | _ => .error .usage

/-- Takes a plain word, if the level has room for it. -/
def takeWord (level : Level) (given : Given) (word : String) : Except Stop Given :=
  if given.words.length < level.words then .ok { given with words := given.words ++ [word] }
  else .error .usage

end Given

/-- An argument by its form. -/
inductive Argument
  | separator
  | long (name : String) (value : Option String)
  | short (letter : Char)
  | word (text : String)
deriving DecidableEq

/-- The form of an argument.  A single dash is a word. -/
def Argument.ofText (text : String) : Argument :=
  match text.toList with
  | ['-', '-'] => .separator
  | '-' :: '-' :: rest =>
    match Text.cutFirst '=' rest with
    | some (name, value) => .long (String.ofList name) (some (String.ofList value))
    | none => .long (String.ofList rest) none
  | '-' :: letter :: _ => .short letter
  | _ => .word text

/-- What an argument without a value does: a question about the program stops the reading. -/
def takeAlone (level : Level) (given : Given) (name : String) : Except Stop Given :=
  if name = "help" then .error .help
  else if name = "version" ∧ !level.commands.isEmpty then .error .version
  else if level.flags.contains name then given.takeFlag name
  else .error .usage

def longName (letter : Char) : String :=
  match letter with
  | 'h' => "help"
  | 'V' => "version"
  | _ => ""

/-- Reads the arguments of a level, up to the command if the level ends with one; what is left are
the command and the arguments behind it.  `awaiting` is the option whose value has to come next. -/
def readLevel (level : Level) (given : Given) (awaiting : Option String) :
    List String → Except Stop (Given × List String)
  | [] => if awaiting.isSome then .error .usage else .ok (given, [])
  | text :: rest =>
    match awaiting, Argument.ofText text with
    | some name, .word value => do readLevel level (← given.takeOption name value) none rest
    | some _, _ => .error .usage
    | none, .separator => do return (← rest.foldlM (Given.takeWord level) given, [])
    | none, .short letter => do
      readLevel level (← takeAlone level given (longName letter)) none rest
    | none, .word word =>
      if level.commands.contains word then .ok (given, text :: rest)
      else do readLevel level (← given.takeWord level word) none rest
    | none, .long name value =>
      match level.options.contains name, value with
      | true, some value => do readLevel level (← given.takeOption name value) none rest
      | true, none => readLevel level given (some name) rest
      | false, some _ => .error .usage
      | false, none => do readLevel level (← takeAlone level given name) none rest

def Command.make (name : String) (given : Given) : Except Stop Command :=
  match name, given.words with
  | "tables", [] => .ok .tables
  | "describe", [table] => .ok (.describe table)
  | "select", [table] => .ok (.select table given.columns given.limit given.order given.distinct)
  | "count", [table] => .ok (.count table)
  | _, _ => .error .usage

/-- One level names at most one place where the connection is described. -/
def Given.checkPlaces (given : Given) : Except Stop Unit :=
  if given.config.isSome ∧ given.url.isSome then .error .usage else .ok ()

/-- What asking for help on a command stops with. -/
def helpOn : List String → Stop
  | [] => .help
  | [name] => if Level.outer.commands.contains name then .help else .usage
  | _ => .usage

def Invocation.ofArguments (arguments : List String) : Except Stop Invocation := do
  let (outer, rest) ← readLevel Level.outer {} none arguments
  match rest with
  | [] => .error .usage
  | "help" :: names => .error (helpOn names)
  | name :: rest =>
    let (inner, _) ← readLevel (Level.behind name) {} none rest
    let command ← Command.make name inner
    inner.checkPlaces
    outer.checkPlaces
    return { config := inner.config.or outer.config, url := inner.url.or outer.url, command }

end SchemaQuery.CommandLine
