import SchemaQuery.Value

/-! Result rows: columns and their values in order.  A name may occur more than once; looking up and
removing a name take its first occurrence. -/

namespace SchemaQuery

/-- One result row. -/
structure Row where
  fields : List (String × Value)
deriving DecidableEq

namespace Row

def empty : Row := ⟨[]⟩

def push (row : Row) (column : String) (value : Value) : Row := ⟨row.fields ++ [(column, value)]⟩

def get? (row : Row) (column : String) : Option Value :=
  (row.fields.find? fun field => field.1 == column).map (·.2)

def erase (row : Row) (column : String) : Row :=
  ⟨row.fields.eraseP fun field => field.1 == column⟩

def first? (row : Row) : Option Value := row.fields.head?.map (·.2)

def columns (row : Row) : List String := row.fields.map (·.1)

def values (row : Row) : List Value := row.fields.map (·.2)

def size (row : Row) : Nat := row.fields.length

/-- Equality of fields, pair by pair. -/
def sameFields : List (String × Value) → List (String × Value) → Bool
  | [], [] => true
  | (a, v) :: rest, (b, w) :: more => a == b && v.same w && sameFields rest more
  | _, _ => false

/-- Equality of rows: the same names and equal values in the same order. -/
def same (a b : Row) : Bool := sameFields a.fields b.fields

def toJson (row : Row) : Json := .object (row.fields.map fun field => (field.1, field.2.toJson))

end Row

end SchemaQuery
