import SchemaQuery.Constraint.Check

/-! Rows and tables in memory as a source of constraint checks.  A table is kept as a numbered
snapshot, so that two names can stand for one snapshot and learn together; a table that is put again
gets a new number and keeps the old snapshot for the names that hold it. -/

namespace SchemaQuery

/-- The entries with one for a name, in place of the one that it had. -/
def putNamed {α : Type} (entries : List (String × α)) (name : String) (x : α) : List (String × α) :=
  (name, x) :: entries.filter fun entry => entry.1 != name

/-- One reading of rows. -/
structure Fetch where
  table : String
  columns : List String
  distinct : Bool
deriving DecidableEq

/-- Snapshots by number, the numbers of the tables of the source and of held names, the rows of each
table, the tables that cannot be read, and the readings so far. -/
structure Memory where
  snapshots : List Table := []
  current : List (String × Nat) := []
  held : List (String × Nat) := []
  rows : List (String × List Row) := []
  failing : List String := []
  fetched : List Fetch := []

/-- The row with only the wanted columns, in the order in which they are wanted. -/
def Row.select (columns : List String) (row : Row) : Row :=
  ⟨columns.filterMap fun column => (row.get? column).map fun value => (column, value)⟩

/-- The rows, each kept where an equal one first occurs. -/
def Row.distinct (rows : List Row) : List Row :=
  rows.foldl (fun kept row => if kept.any row.same then kept else kept ++ [row]) []

namespace Memory

/-- The number of the snapshot that a name stands for; held names come first. -/
def number? (m : Memory) (name : String) : Option Nat :=
  (m.held.lookup name).or (m.current.lookup name)

/-- The snapshots by name; held names come first. -/
def known (m : Memory) : List (String × Table) :=
  (m.held ++ m.current).filterMap fun (name, number) =>
    (m.snapshots[number]?).map fun table => (name, table)

def put (m : Memory) (table : Table) : Memory :=
  { m with
    snapshots := m.snapshots ++ [table]
    current := putNamed m.current table.name m.snapshots.length }

def fetch (table : String) (columns : List String) (distinct : Bool) :
    Action Memory (List Row) := do
  modify fun m => { m with fetched := m.fetched ++ [⟨table, columns, distinct⟩] }
  let m ← get
  if m.failing.contains table then throw (.executor ("fetch failed: " ++ table))
  let rows := ((m.rows.lookup table).getD []).map (Row.select columns)
  return if distinct then Row.distinct rows else rows

def source : RowSource Memory where
  fetch := fetch
  table? m name := (m.current.lookup name).bind (m.snapshots[·]?)
  changeTable name change m :=
    match m.current.lookup name with
    | some number => { m with snapshots := m.snapshots.modify number change }
    | none => m

/-- Runs a step on the constraint at a place of a column of a snapshot, and keeps there the
constraint that comes out of it. -/
def atPlace {α : Type} (number : Nat) (column : String) (place : Nat)
    (step : Constraint → StateM Memory (α × Constraint)) :
    StateM Memory (Option (α × Constraint)) := do
  let found :=
    ((← get).snapshots[number]?.bind fun table => table.columnNamed? column).bind fun c =>
      c.constraints[place]?
  match found with
  | none => return none
  | some constraint =>
    let (result, learned) ← step constraint
    modify fun m =>
      { m with snapshots := m.snapshots.modify number fun t =>
        t.setConstraint column place learned }
    return some (result, learned)

/-- Runs a step on each of the first constraints of a column of a snapshot. -/
def atPlaces {α : Type} (number : Nat) (column : String) (count : Nat)
    (step : Constraint → StateM Memory (α × Constraint)) :
    StateM Memory (List (α × Constraint)) := do
  let results ← (List.range count).mapM fun place => atPlace number column place step
  return results.reduceOption

/-- Fills the cache of a constraint, as a step. -/
def fillStep (constraint : Constraint) : StateM Memory (Except Error Unit × Constraint) := do
  match ← (constraint.fill source).run with
  | .ok filled => return (.ok (), filled)
  | .error e => return (.error e, constraint)

end Memory

end SchemaQuery
