import SchemaQuery.Expr
import SchemaQuery.Method
import SchemaQuery.Table

/-! Requests: a method, a table, the fields it works on, and clauses and flags.  Each method uses
the modifiers it knows and ignores the others. -/

namespace SchemaQuery

/-- The table of a request, by name or by value. -/
inductive TableRef
  | byName (name : String)
  | byValue (table : Table)
deriving DecidableEq

def TableRef.name : TableRef → String
  | .byName name => name
  | .byValue table => table.name

/-- What a request works on; which of these it takes depends on its method. -/
inductive Fields
  | nothing
  | all
  | column (column : ColumnRef)
  | columns (columns : List ColumnRef)
  | values (pairs : List (ColumnRef × Value))
  | change (old new : ColumnRef)
  | constraint (constraint : Constraint)
deriving DecidableEq

namespace Fields

/-- The words `all` and `*` stand for every column, any other text for a column. -/
def ofText (text : String) : Fields :=
  if (ColumnRef.byName text).isAll then .all else .column (.byName text)

def shape : Fields → String
  | .nothing => "nothing"
  | .all => "all"
  | .column _ => "a column"
  | .columns _ => "a column list"
  | .values _ => "a value mapping"
  | .change _ _ => "a column change"
  | .constraint _ => "a constraint"

end Fields

/-- The clauses and flags of a request. -/
structure Modifiers where
  predicate : Option Expr := none
  limit : Option Int64 := none
  groupBy : Option ColumnRef := none
  orderBy : Option ColumnRef := none
  temporary : Bool := false
  clobber : Bool := false
  after : Option ColumnRef := none
  newDefinition : Option ColumnRef := none
  foreign : Option ColumnRef := none
  name : Option String := none
  maxRows : Option Nat := none
deriving DecidableEq

/-- One operation on a database. -/
structure Request where
  method : String
  table : TableRef
  fields : Fields := .nothing
  modifiers : Modifiers := {}
deriving DecidableEq

/-- Whether a request that creates a table makes it a temporary one; the method, the modifiers and
the table itself can each ask for it. -/
def Request.createsTemporary (request : Request) (temporary : Bool) : Bool :=
  temporary || request.modifiers.temporary
    || match request.table with
      | .byValue table => table.temporary
      | .byName _ => false

end SchemaQuery
