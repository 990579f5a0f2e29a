import SchemaQuery.Constraint

/-! Columns and the constraints attached to them.  A column has at most one keyed constraint:
attaching a stronger one replaces it where it stands, and a weaker or equal one is dropped.  Foreign
keys gather beside it. -/

namespace SchemaQuery

/-- One column of a table.  The owner is the name of that table. -/
structure Column where
  owner : Option String := none
  name : String
  type : String
  nullable : Bool := true
  defaultValue : Option String := none
  visible : Bool := true
  autoIncrement : Bool := false
  comment : String := ""
  constraints : List Constraint := []
deriving DecidableEq

namespace Column

def key (column : Column) : ColumnKey := ⟨column.owner, column.name⟩

def qualifiedName (column : Column) : String := column.key.qualified

/-- Where the keyed constraint stands among the constraints. -/
def keyedIndex? (constraints : List Constraint) : Option Nat :=
  constraints.findIdx? Constraint.isKeyed

def keyKind? (column : Column) : Option KeyKind :=
  KeyKind.strongestFirst.find? fun kind => column.constraints.any fun c => c.kind? == some kind

/-- The constraints with one more attached, and the place of the constraint that now answers for
it. -/
def attachTo (constraints : List Constraint) (added : Constraint) : List Constraint × Nat :=
  match added.kind? with
  | none => (constraints ++ [added], constraints.length)
  | some kind =>
    match keyedIndex? constraints with
    | none => (constraints ++ [added], constraints.length)
    | some place =>
      let weaker := constraints[place]?.any fun c => c.kind?.all fun k => k.strength < kind.strength
      if weaker then (constraints.set place added, place) else (constraints, place)

def attach (column : Column) (added : Constraint) : Column :=
  { column with constraints := (attachTo column.constraints added).1 }

/-- The constraint that answers for `added` once it has been attached: itself, or the one it had to
give way to. -/
def attached (column : Column) (added : Constraint) : Constraint :=
  let (constraints, place) := attachTo column.constraints added
  constraints[place]?.getD added

/-- The column with a key of the given kind.  A primary key forbids empty cells. -/
def withKey (column : Column) (kind : KeyKind) : Column :=
  let column := if kind = .primary then { column with nullable := false } else column
  column.attach (Constraint.keyed kind column.key none)

/-- The column as part of a table; constraints on it follow. -/
def ownedBy (column : Column) (table : String) : Column :=
  let owned := { column with owner := some table }
  { owned with constraints := column.constraints.map (Constraint.retarget column.key owned.key) }

/-- The constraint an index, a unique constraint or a primary key of this column would be. -/
def newKey (column : Column) (kind : KeyKind) (name : Option String) : Except Error Constraint :=
  match kind with
  | .primary => Constraint.primaryKey column.key column.nullable name
  | _ => .ok (Constraint.keyed kind column.key name)

/-- Where the constraint asked for stands: the first of that name, or the first of the strongest
kind among those that serve. -/
def findIndex? (constraints : List Constraint) : Lookup → Option Nat
  | .name name => constraints.findIdx? fun c => c.name == name
  | .kind asked =>
    (KeyKind.strongestFirst.filter asked.servedBy).findSome? fun kind =>
      constraints.findIdx? fun c => c.kind? == some kind

def find? (column : Column) (lookup : Lookup) : Option Constraint :=
  (findIndex? column.constraints lookup).bind fun place => column.constraints[place]?

/-- The column with the constraint asked for as the only one that answers. -/
def keepOnly (column : Column) (lookup : Lookup) : Column :=
  match findIndex? column.constraints lookup with
  | none => column
  | some place =>
    { column with
      constraints := (column.constraints.zipIdx.filter fun (c, i) => i == place ||
        !c.answers lookup).map (·.1) }

/-- The constraint that `keepOnly` keeps, read off where it then stands: each other answer that
stood before it moves it down by one place. -/
def kept? (column : Column) (lookup : Lookup) : Option Constraint :=
  (findIndex? column.constraints lookup).bind fun place =>
    (column.keepOnly lookup).constraints[place -
      (column.constraints.take place).countP (·.answers lookup)]?

/-- The first constraint of a name, and the column without it. -/
def detach? (column : Column) (name : String) : Option (Constraint × Column) :=
  (column.constraints.find? fun c => c.name == name).map fun c =>
    (c, { column with constraints := column.constraints.eraseP fun c => c.name == name })

/-- The column that a foreign key refers to, with that key noted on it.  It gets an index if it has
no key. -/
def referencedBy (column : Column) (key : ForeignKey) : Column :=
  let indexed :=
    if (column.find? (.kind .index)).isSome then column
    else column.attach (Constraint.keyed .index column.key none)
  { indexed with constraints := indexed.constraints ++ [.foreign key] }

/-- A foreign key from one column to another: the key, and both columns with it. -/
def link (column foreign : Column) (name : Option String) :
    Except Error (ForeignKey × Column × Column) :=
  (ForeignKey.make column.key foreign.key name).map fun key =>
    (key, column.attach (.foreign key), foreign.referencedBy key)

/-- The column with the caches of its constraints empty. -/
def withoutCaches (column : Column) : Column :=
  { column with constraints := column.constraints.map Constraint.withoutCache }

/-- Whether two columns are the same, whatever the caches of their constraints hold. -/
def same (a b : Column) : Bool := a.withoutCaches == b.withoutCaches

end Column

end SchemaQuery
