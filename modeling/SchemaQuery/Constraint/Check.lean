import SchemaQuery.Constraint.Source

/-! Checking values against constraints.  The first check of a constraint reads the rows that it
needs and keeps them in its cache; every later check is decided by that cache alone.  A check that
cannot read fills no cache. -/

namespace SchemaQuery

variable {σ : Type}

namespace Index

/-- The columns read for an index: the keyed columns of its table, and its own in front if it is not
one of them. -/
def wanted (index : Index) (table : Table) : List String :=
  let keyed := (table.columns.filter fun column => column.constraints.any Constraint.isKeyed).map
    Column.name
  if keyed.contains index.target.column then keyed else index.target.column :: keyed

/-- The entries with one more; an entry for an equal value keeps its value and takes the new row. -/
def putEntry (value : Value) (row : Row) : List (Value × Row) → List (Value × Row)
  | [] => [(value, row)]
  | (known, old) :: rest =>
    if known.same value then (known, row) :: rest else (known, old) :: putEntry value row rest

/-- The entries for rows: the value of a column, and the row without it. -/
def entries (column : String) (rows : List Row) : List (Value × Row) :=
  rows.foldl (fun found row =>
    match row.get? column with
    | some value => putEntry value (row.erase column) found
    | none => found) []

/-- The index with its cache filled. -/
def fill (source : RowSource σ) (index : Index) : Action σ Index :=
  match index.cache with
  | some _ => pure index
  | none => do
    let owner ← index.target.owner
    let table ← source.table owner
    let rows ← source.fetch owner (index.wanted table) false
    return { index with cache := some (entries index.target.column rows) }

def keys (index : Index) : List Value := (index.cache.getD []).map (·.1)

end Index

namespace Unique

/-- The values of a column in rows, each once. -/
def present (column : String) (rows : List Row) : List Value :=
  Value.distinct (rows.filterMap fun row => row.get? column)

/-- The constraint with its cache filled. -/
def fill (source : RowSource σ) (unique : Unique) : Action σ Unique :=
  match unique.cache with
  | some _ => pure unique
  | none => do
    let rows ← source.fetch (← unique.target.owner) [unique.target.column] true
    return { unique with cache := some (present unique.target.column rows) }

end Unique

/-- The keyed constraint with its cache filled, and the values of its column. -/
def Constraint.fillKeyed (source : RowSource σ) : Constraint → Action σ (Constraint × List Value)
  | .index i => do
    let filled ← i.fill source
    return (.index filled, filled.keys)
  | .unique u => do
    let filled ← u.fill source
    return (.unique filled, filled.cache.getD [])
  | .primary u => do
    let filled ← u.fill source
    return (.primary filled, filled.cache.getD [])
  | .foreign f => throw (.constraint (.noIndex f.foreign))

namespace ForeignKey

/-- The values of the foreign column, read through its keyed constraint, whose cache is filled
too. -/
def foreignKeys (source : RowSource σ) (key : ForeignKey) : Action σ (List Value) := do
  let table ← source.table (← key.foreign.owner)
  match table.column? key.foreign.column with
  | none => throw (.schema (.unknownForeignColumn key.foreign.qualified))
  | some column =>
    match Column.findIndex? column.constraints (.kind .index) with
    | none => throw (.constraint (.noIndex key.foreign))
    | some place =>
      match column.constraints[place]? with
      | none => throw (.constraint (.noIndex key.foreign))
      | some constraint =>
        let (filled, values) ← constraint.fillKeyed source
        modify (source.changeTable table.name fun table =>
          table.setConstraint column.name place filled)
        return values

/-- The foreign key with its cache filled. -/
def fill (source : RowSource σ) (key : ForeignKey) : Action σ ForeignKey :=
  match key.cache with
  | some _ => pure key
  | none => do return { key with cache := some (← key.foreignKeys source) }

end ForeignKey

namespace Constraint

/-- The constraint with its cache filled. -/
def fill (source : RowSource σ) : Constraint → Action σ Constraint
  | .index i => .index <$> i.fill source
  | .unique u => .unique <$> u.fill source
  | .primary u => .primary <$> u.fill source
  | .foreign f => .foreign <$> f.fill source

/-- Whether a constraint with a filled cache allows a value.  An index allows every value. -/
def verdict (value : Value) : Constraint → Except Error Unit
  | .index _ => .ok ()
  | .unique u | .primary u =>
    if value.isIn (u.cache.getD []) then .error (.constraint (.notUnique value u.target))
    else .ok ()
  | .foreign f =>
    if value.isIn (f.cache.getD []) then .ok () else .error (.constraint (.notAKey value f.foreign))

/-- Checks a value.  What comes out is the verdict, and the constraint with what it has learned. -/
def check (source : RowSource σ) (value : Value) (constraint : Constraint) :
    StateM σ (Except Error Unit × Constraint) := do
  match ← (constraint.fill source).run with
  | .ok filled => return (filled.verdict value, filled)
  | .error e => return (.error e, constraint)

end Constraint

/-- Checks a value against the constraint at a place of a column of a known table, and keeps there
what it has learned.  Where there is no constraint nothing is checked. -/
def RowSource.checkAt (source : RowSource σ) (table column : String) (place : Nat) (value : Value) :
    Action σ Unit := do
  let found := ((source.table? (← get) table).bind fun t => t.columnNamed? column).bind fun c =>
    c.constraints[place]?
  match found with
  | none => pure ()
  | some constraint =>
    let (verdict, learned) ← constraint.check source value
    modify (source.changeTable table fun t => t.setConstraint column place learned)
    verdict

end SchemaQuery
