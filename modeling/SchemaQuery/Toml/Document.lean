import SchemaQuery.Toml.Number

/-! TOML files without tables: lines of a name, an equals sign and a value, with blank lines and
comments between them.  A value is a string on one line, a number or a truth value; every name
occurs once. -/

namespace SchemaQuery.Toml

/-- A value of a file. -/
inductive Value
  | text (s : String)
  | integer (n : Int64)
  | float (x : Binary64)
  | boolean (b : Bool)
deriving DecidableEq

abbrev Entry := String × Value

/-- A character that may stand between the parts of a line. -/
def isSpace (c : Char) : Bool := c == ' ' || c == '\t'

def isBareKey (c : Char) : Bool := c.isAlphanum || c == '_' || c == '-'

/-- Whether nothing but spaces and a comment is left of a line. -/
def isLineEnd (text : List Char) : Bool :=
  match text.dropWhile isSpace with
  | [] => true
  | c :: comment => c == '#' && !comment.any isControl

/-- A name at the start of a text, and what follows it. -/
def readKey? (text : List Char) : Option (List Char × List Char) :=
  let bare := text.takeWhile isBareKey
  if bare.isEmpty then readString? text else some (bare, text.dropWhile isBareKey)

def readWord? (word : List Char) : Option Value :=
  if word = "true".toList then some (.boolean true)
  else if word = "false".toList then some (.boolean false)
  else ((readInteger? word).map .integer).or ((readFloat? word).map .float)

/-- A value at the start of a text, and what follows it. -/
def readValue? (text : List Char) : Option (Value × List Char) :=
  let inWord (c : Char) : Bool := !isSpace c && c != '#'
  match readString? text with
  | some (content, rest) => some (.text (String.ofList content), rest)
  | none => (readWord? (text.takeWhile inWord)).map fun value => (value, text.dropWhile inWord)

def readEntry? (line : List Char) : Option Entry := do
  let (key, rest) ← readKey? (line.dropWhile isSpace)
  match rest.dropWhile isSpace with
  | '=' :: rest =>
    let (value, rest) ← readValue? (rest.dropWhile isSpace)
    if isLineEnd rest then some (String.ofList key, value) else none
  | _ => none

def dropReturn (line : List Char) : List Char :=
  match Text.cutLast '\r' line with
  | some (before, []) => before
  | _ => line

/-- The lines of a file.  The last one has no end. -/
def lines (text : List Char) : List (List Char) :=
  let all := Text.cutAll '\n' (if text.head? = some '\uFEFF' then text.tail else text)
  all.dropLast.map dropReturn ++ all.getLast?.toList

def read? (text : String) : Option (List Entry) := do
  let entries ← ((lines text.toList).filter fun line => !isLineEnd line).mapM readEntry?
  if (entries.map Prod.fst).Nodup then some entries else none

end SchemaQuery.Toml
