import SchemaQuery.Error
import SchemaQuery.Text.Case

/-! Cutting definitions into pieces.  A separator counts only outside quotes and brackets; inside
quotes a backslash takes the next character along.  Quoted names and comments are written with their
marks doubled and read back by undoing both ways of writing a mark. -/

namespace SchemaQuery.Definition

/-- The quote marks: backtick, single quote and double quote. -/
def isQuote (c : Char) : Bool := c == '\x60' || c == '\'' || c == '"'

/-- Where the reading of a text stands: outside quotes, with a number of open brackets, or inside
quotes, perhaps just after a backslash. -/
inductive Place
  | outside (depth : Nat)
  | quoted (depth : Nat) (mark : Char) (escaped : Bool)
deriving DecidableEq

/-- The place after one more character; nothing when it closes a bracket that is not open. -/
def Place.step : Place → Char → Option Place
  | .outside depth, c =>
    if isQuote c then some (.quoted depth c false)
    else if c = '(' then some (.outside (depth + 1))
    else if c = ')' then (if depth = 0 then none else some (.outside (depth - 1)))
    else some (.outside depth)
  | .quoted depth mark true, _ => some (.quoted depth mark false)
  | .quoted depth mark false, c =>
    if c = '\\' then some (.quoted depth mark true)
    else if c = mark then some (.outside depth)
    else some (.quoted depth mark false)

/-- How a text can fail to be cut. -/
inductive CutFault
  | unbalanced
  | unterminated
deriving DecidableEq

/-- The pieces between the separators that stand outside quotes and brackets: the piece that reaches
the start, and the others. -/
def pieces (isSeparator : Char → Bool) (place : Place) :
    List Char → Except CutFault (List Char × List (List Char))
  | [] => if place = .outside 0 then .ok ([], []) else .error .unterminated
  | c :: rest =>
    if place = .outside 0 ∧ isSeparator c then
      (pieces isSeparator place rest).map fun (first, more) => ([], first :: more)
    else
      match place.step c with
      | none => .error .unbalanced
      | some next =>
        (pieces isSeparator next rest).map fun (first, more) => (c :: first, more)

/-- The pieces of a text without the blanks around them; empty ones are left out. -/
def split (isSeparator : Char → Bool) (text : String) : Except DefinitionFault (List String) :=
  match pieces isSeparator (.outside 0) text.toList with
  | .ok (first, more) =>
    .ok (((first :: more).map Text.trimChars).filter (!·.isEmpty) |>.map String.ofList)
  | .error .unbalanced => .error (.unbalanced text)
  | .error .unterminated => .error (.unterminated text)

/-- The tokens of a definition: what stands between blanks. -/
def tokens (definition : String) : Except DefinitionFault (List String) :=
  split Text.isBlank definition

/-- The definitions of a list, which are separated by commas. -/
def splitList (text : String) : Except DefinitionFault (List String) := split (· == ',') text

/-- A text between two marks, with inner marks and backslashes doubled. -/
def quote (mark : Char) (text : String) : String :=
  let doubled := text.toList.flatMap fun c => if c = '\\' ∨ c = mark then [c, c] else [c]
  String.ofList (mark :: doubled ++ [mark])

/-- A quoted text with the backslashes and doubled marks undone. -/
def unescape (mark : Char) : List Char → List Char
  | [] => []
  | [c] => if c = '\\' then [] else [c]
  | c :: d :: rest =>
    if c = '\\' then d :: unescape mark rest
    else if c = mark ∧ d = mark then mark :: unescape mark rest
    else c :: unescape mark (d :: rest)

/-- What stands between two marks at the ends of a text. -/
def between? (mark : Char) : List Char → Option (List Char)
  | [] => none
  | c :: rest => if c = mark ∧ rest.getLast? = some mark then some rest.dropLast else none

/-- The text inside a quoted token; a token without marks stands for itself. -/
def unquote (mark : Char) (token : String) : String :=
  match between? mark token.toList with
  | some inner => String.ofList (unescape mark inner)
  | none => token

end SchemaQuery.Definition
