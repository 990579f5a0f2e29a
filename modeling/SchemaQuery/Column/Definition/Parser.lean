import SchemaQuery.Column
import SchemaQuery.Column.Definition.Token

/-! Reading column definitions: a name, a type, and clauses in any order.

`name type [[not] null] [default value] [[in]visible] [[auto_]increment] [unique [key]]`
`[[primary] key] [comment value]`

The words of the grammar may be in any letter case.  A default takes the tokens up to the next word
of the grammar, a comment all that are left. -/

namespace SchemaQuery.Definition

/-- The words that end a default value. -/
def keywords : List String :=
  ["not", "null", "default", "visible", "invisible", "increment", "auto_increment", "unique",
    "primary", "key", "comment"]

/-- The words that belong to the type before them. -/
def typeSuffixes : List String := ["unsigned", "signed", "zerofill"]

/-- Whether a token is one of the words of the grammar. -/
def isKeyword (token : String) : Bool := keywords.contains (Text.lower token)

/-- Whether a token belongs to the type before it. -/
def isTypeSuffix (token : String) : Bool := typeSuffixes.contains (Text.lower token)

/-- One clause of a definition. -/
inductive Clause
  | nullable (allowed : Bool)
  | default (value : String)
  | visible (shown : Bool)
  | increment
  | key (kind : KeyKind)
  | comment (text : String)
deriving DecidableEq

/-- The tokens after the word `key`, which may be left out. -/
def afterKey : List String → List String
  | [] => []
  | token :: rest => if Text.lower token = "key" then rest else token :: rest

theorem length_afterKey (tokens : List String) : (afterKey tokens).length ≤ tokens.length := by
  cases tokens with
  | nil => exact Nat.le_refl _
  | cons token rest =>
    simp only [afterKey]
    split
    · exact Nat.le_succ _
    · exact Nat.le_refl _

/-- The text of a comment: a single token without its quotes, or all tokens as they are. -/
def commentText : List String → String
  | [single] => unquote '\'' single
  | tokens => " ".intercalate tokens

/-- The clause that a word opens, and the tokens after it. -/
def clause (definition : String) (word : String) (rest : List String) :
    Except DefinitionFault (Clause × List String) :=
  match Text.lower word with
  | "not" =>
    match rest with
    | next :: rest =>
      if Text.lower next = "null" then .ok (.nullable false, rest)
      else .error (.nullExpected definition)
    | [] => .error (.nullExpected definition)
  | "null" => .ok (.nullable true, rest)
  | "default" =>
    match rest with
    | [] => .error (.missingDefault definition)
    | first :: rest =>
      .ok (.default (" ".intercalate (first :: rest.takeWhile (!isKeyword ·))),
        rest.dropWhile (!isKeyword ·))
  | "visible" => .ok (.visible true, rest)
  | "invisible" => .ok (.visible false, rest)
  | "increment" | "auto_increment" => .ok (.increment, rest)
  | "unique" => .ok (.key .unique, afterKey rest)
  | "primary" => .ok (.key .primary, afterKey rest)
  | "key" => .ok (.key .index, rest)
  | "comment" => .ok (.comment (commentText rest), [])
  | _ => .error (.unexpectedToken word definition)

/-- A clause leaves no more tokens than it was given. -/
theorem length_of_clause {definition word : String} {rest left : List String} {c : Clause}
    (h : clause definition word rest = .ok (c, left)) : left.length ≤ rest.length := by
  unfold clause at h
  split at h
  case h_1 =>
    split at h
    · split at h
      · cases h
        exact Nat.le_succ _
      · cases h
    · cases h
  case h_3 =>
    split at h
    · cases h
    · cases h
      exact Nat.le_succ_of_le (List.dropWhile_sublist _).length_le
  case h_8 =>
    cases h
    exact length_afterKey _
  case h_9 =>
    cases h
    exact length_afterKey _
  case h_11 =>
    cases h
    exact Nat.zero_le _
  case h_12 => cases h
  all_goals
    cases h
    exact Nat.le_refl _

/-- All clauses of a definition, in order. -/
def clauses (definition : String) : List String → Except DefinitionFault (List Clause)
  | [] => .ok []
  | word :: rest =>
    match h : clause definition word rest with
    | .error fault => .error fault
    | .ok (c, left) =>
      have : left.length ≤ rest.length := length_of_clause h
      (clauses definition left).map (c :: ·)
termination_by tokens => tokens.length
decreasing_by exact Nat.lt_succ_of_le this

/-- The column with what a clause says; keys are not attached yet. -/
def apply (column : Column) : Clause → Column
  | .nullable allowed => { column with nullable := allowed }
  | .default value => { column with defaultValue := some value }
  | .visible shown => { column with visible := shown }
  | .increment => { column with autoIncrement := true }
  | .key _ => column
  | .comment text => { column with comment := text }

def keyOf (clauses : List Clause) : Option KeyKind :=
  clauses.foldl (fun found clause => match clause with
    | .key kind => some kind
    | _ => found) none

/-- A column from its name, its type and its clauses. -/
def build (name type : String) (clauses : List Clause) : Column :=
  let column := clauses.foldl apply { name, type }
  match keyOf clauses with
  | some kind => column.withKey kind
  | none => column

def ofTokens (definition : String) : List String → Except DefinitionFault Column
  | [] => .error (.missingName definition)
  | nameToken :: rest =>
    let name := unquote '\x60' nameToken
    if name.isEmpty then .error (.missingName definition)
    else
      match rest with
      | [] => .error (.missingType name)
      | base :: rest =>
        let type := " ".intercalate (base :: rest.takeWhile isTypeSuffix)
        (clauses definition (rest.dropWhile isTypeSuffix)).map (build name type)

/-- The column that a definition describes. -/
def parse (definition : String) : Except DefinitionFault Column := do
  ofTokens definition (← tokens definition)

end SchemaQuery.Definition

namespace SchemaQuery.Column

def ofDefinition (definition : String) : Except Error Column :=
  (Definition.parse definition).mapError .definition

end SchemaQuery.Column
