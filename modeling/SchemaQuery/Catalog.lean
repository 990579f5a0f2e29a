import SchemaQuery.Table

/-! Catalogs: the tables that a request is checked against, and whether there is a connection at
all. -/

namespace SchemaQuery

/-- The tables known at a moment. -/
structure Catalog where
  isOpen : Bool
  tables : List Table
deriving DecidableEq

def findTable? (tables : List Table) (name : String) : Option Table :=
  tables.find? fun table => table.name == name

/-- The tables with one more, which takes the place of the one that had its name. -/
def putTable (tables : List Table) (table : Table) : List Table :=
  match tables.findIdx? fun known => known.name == table.name with
  | some place => tables.set place table
  | none => tables ++ [table]

def changeTable (name : String) (change : Table → Table) : List Table → List Table
  | [] => []
  | table :: rest =>
    if table.name = name then change table :: rest else table :: changeTable name change rest

/-- The tables with a foreign key noted on the columns that it joins.  Each column is given with its
table; nothing comes out when there is no such column. -/
def linkColumns? (tables : List Table) (column foreign : String × String) (name : Option String) :
    Option (Except Error (List Table)) := do
  let target ← (← findTable? tables column.1).columnNamed? column.2
  let referenced ← (← findTable? tables foreign.1).columnNamed? foreign.2
  return (target.link referenced name).map fun (_, target, referenced) =>
    changeTable foreign.1 (fun table => table.updateColumn foreign.2 fun _ => referenced)
      (changeTable column.1 (fun table => table.updateColumn column.2 fun _ => target) tables)

namespace Catalog

def table? (catalog : Catalog) (name : String) : Option Table := findTable? catalog.tables name

/-- The catalog with one more table, which takes the place of the one that had its name. -/
def insert (catalog : Catalog) (table : Table) : Catalog :=
  { catalog with tables := putTable catalog.tables table }

end Catalog

end SchemaQuery
