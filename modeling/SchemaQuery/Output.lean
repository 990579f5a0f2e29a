import SchemaQuery.MySql.Description
import SchemaQuery.Request

/-! The output of a request: what the rows of an answer mean, given the method they answer. -/

namespace SchemaQuery

/-- What a request gives back. -/
inductive Output
  | empty
  | scalar (value : Value)
  | names (names : List String)
  | rows (rows : List Row)
deriving DecidableEq

namespace Output

/-- Whether there is no output at all. -/
def isEmpty : Output → Bool
  | .empty => true
  | _ => false

def toRows : Output → List Row
  | .rows found => found
  | _ => []

def toNames : Output → List String
  | .names found => found
  | _ => []

def toScalar? : Output → Option Value
  | .scalar value => some value
  | _ => none

def toJson : Output → Json
  | .empty => .null
  | .scalar value => value.toJson
  | .names found => .array (found.map .string)
  | .rows found => .array (found.map Row.toJson)

/-- The output of rows that answer a method.  Only lists of rows are cut to a number of rows. -/
def ofRows (method : Method) (maxRows : Option Nat) (answer : List Row) : Except Error Output :=
  match method with
  | .count => .ok (.scalar ((answer.head?.bind Row.first?).getD (.int 0)))
  | .showTables => (answer.mapM MySql.listedTable).map .names
  | .describe => (answer.mapM MySql.describedDefinition).map .names
  | .select | .distinct =>
    .ok (.rows (match maxRows with
      | some most => answer.take most
      | none => answer))
  | _ => .ok .empty

/-- The output of an answer to a method; an answer without rows is empty output. -/
def ofAnswer (method : Method) (maxRows : Option Nat) : Option (List Row) → Except Error Output
  | none => .ok .empty
  | some answer => ofRows method maxRows answer

/-- The output of an answer to a method in words, which are read only if the answer has rows. -/
def ofAnswerTo (words : String) (maxRows : Option Nat) : Option (List Row) → Except Error Output
  | none => .ok .empty
  | some answer =>
    match Method.ofText words with
    | .ok method => ofRows method maxRows answer
    | .error cause => .error (.unchecked "interpret called on an unvalidated method" cause)

end Output

end SchemaQuery
