import SchemaQuery.Table

/-! Where constraint checks look: a source of rows and tables.  The source is a table of operations
on a state of any type, so that a database and a set of rows in memory can both be one. -/

namespace SchemaQuery

/-- A step that changes a state and may fail; the change stays when it does. -/
abbrev Action (σ : Type) := ExceptT Error (StateM σ)

/-- The operations of a source of rows.  `fetch` gives the wanted columns of the rows of a table,
once each if they are to be distinct; `changeTable` keeps what a check has learned about a table. -/
structure RowSource (σ : Type) where
  fetch : String → List String → Bool → Action σ (List Row)
  table? : σ → String → Option Table
  changeTable : String → (Table → Table) → σ → σ

/-- The table of that name, or the error that there is none. -/
def RowSource.table {σ : Type} (source : RowSource σ) (name : String) : Action σ Table := do
  match source.table? (← get) name with
  | some table => pure table
  | none => throw (.table (.unknown name))

/-- The owner of a column, or the error that it has none. -/
def ColumnKey.owner (key : ColumnKey) : Except Error String :=
  match key.table with
  | some table => .ok table
  | none => .error (.schema (.unowned key.column))

/-- The table with the constraint at a place of a column replaced. -/
def Table.setConstraint (table : Table) (column : String) (place : Nat) (constraint : Constraint) :
    Table :=
  table.updateColumn column fun c => { c with constraints := c.constraints.set place constraint }

end SchemaQuery
