import SchemaQuery.Error
import SchemaQuery.Row
import SchemaQuery.Text.Case

/-! Constraints on columns.  An index, a unique constraint and a primary key are keyed: they belong
to one column and differ in strength.  A foreign key joins two columns.  Each constraint carries the
cache that its checks fill; a cache is no part of what the constraint is. -/

namespace SchemaQuery

/-- An index that allows repeated values.  The cache maps a value of the column to the rest of its
row. -/
structure Index where
  name : String
  target : ColumnKey
  cache : Option (List (Value × Row)) := none
deriving DecidableEq

/-- A constraint against repeated values.  The cache holds the values already present. -/
structure Unique where
  name : String
  target : ColumnKey
  cache : Option (List Value) := none
deriving DecidableEq

/-- A reference from `target` to `foreign`, a column of another table.  The cache holds the keys of
the foreign column. -/
structure ForeignKey where
  name : String
  target : ColumnKey
  foreign : ColumnKey
  cache : Option (List Value) := none
deriving DecidableEq

/-- A named rule attached to a column; a primary key is a unique constraint on a column without
empty cells. -/
inductive Constraint
  | index (index : Index)
  | unique (unique : Unique)
  | primary (unique : Unique)
  | foreign (key : ForeignKey)
deriving DecidableEq

/-- `fk_table_column_foreign`, the name of a foreign key that is not given one. -/
def ForeignKey.defaultName (target foreign : ColumnKey) : String :=
  "fk_" ++ target.table.getD "" ++ "_" ++ target.column ++ "_" ++ foreign.column

/-- A foreign key from `target` to `foreign`.  The two columns need different tables. -/
def ForeignKey.make (target foreign : ColumnKey) (name : Option String) : Except Error ForeignKey :=
  if target.table = foreign.table then
    .error (.constraint (.ownTable (target.qualified ++ " -> " ++ foreign.qualified)))
  else .ok { name := name.getD (ForeignKey.defaultName target foreign), target, foreign }

/-- Which constraints of a column are asked for: the keyed ones of at least a strength, or those of
a name. -/
inductive Lookup
  | kind (kind : KeyKind)
  | name (name : String)
deriving DecidableEq

/-- The words `index`, `unique` and `primary` ask for a kind, every other text for a name. -/
def Lookup.ofText (text : String) : Lookup :=
  let word := Text.lower text
  if word = "index" then .kind .index
  else if word = "unique" then .kind .unique
  else if word = "primary" then .kind .primary
  else .name text

namespace Constraint

/-- A keyed constraint of a kind, with the kind's own word for a name unless one is given. -/
def keyed (kind : KeyKind) (target : ColumnKey) (name : Option String) : Constraint :=
  let name := name.getD kind.keyword
  match kind with
  | .index => .index { name, target }
  | .unique => .unique { name, target }
  | .primary => .primary { name, target }

/-- A primary key, which a nullable column cannot have. -/
def primaryKey (target : ColumnKey) (nullable : Bool) (name : Option String) :
    Except Error Constraint :=
  if nullable then .error (.constraint (.nullablePrimary target.qualified))
  else .ok (keyed .primary target name)

/-- The kind of a keyed constraint; foreign keys have none. -/
def kind? : Constraint → Option KeyKind
  | .index _ => some .index
  | .unique _ => some .unique
  | .primary _ => some .primary
  | .foreign _ => none

/-- Whether the constraint makes its column a key. -/
def isKeyed (c : Constraint) : Bool := c.kind?.isSome

def name : Constraint → String
  | .index i => i.name
  | .unique u | .primary u => u.name
  | .foreign f => f.name

def target : Constraint → ColumnKey
  | .index i => i.target
  | .unique u | .primary u => u.target
  | .foreign f => f.target

/-- The constraint with an empty cache. -/
def withoutCache : Constraint → Constraint
  | .index i => .index { i with cache := none }
  | .unique u => .unique { u with cache := none }
  | .primary u => .primary { u with cache := none }
  | .foreign f => .foreign { f with cache := none }

/-- Whether two constraints are the same rule, whatever their caches hold. -/
def same (a b : Constraint) : Bool := a.withoutCache == b.withoutCache

/-- Whether the constraint is one of those asked for. -/
def answers (c : Constraint) : Lookup → Bool
  | .kind kind => c.kind?.any kind.servedBy
  | .name name => c.name == name

/-- The constraint with column `old` replaced by column `new` wherever it occurs. -/
def retarget (old new : ColumnKey) (c : Constraint) : Constraint :=
  let replace (key : ColumnKey) := if key = old then new else key
  match c with
  | .index i => .index { i with target := replace i.target }
  | .unique u => .unique { u with target := replace u.target }
  | .primary u => .primary { u with target := replace u.target }
  | .foreign f => .foreign { f with target := replace f.target, foreign := replace f.foreign }

end Constraint

end SchemaQuery
