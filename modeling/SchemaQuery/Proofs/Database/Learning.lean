import SchemaQuery.Proofs.Database.Check

/-! What a registry learns from checks.  A check puts constraints with filled caches where the same
constraints stood without them.  It never changes a cache that is filled, nor a foreign key that is
noted on a column without leading away from it; so what one check has found out is still there after
all later ones. -/

namespace SchemaQuery

variable {tables learned last : List Table} {table : Table} {column : Column}
  {name columnName : String} {place : Nat} {c new : Constraint}

/-! ### Replacing a constraint -/

theorem findTable?_changeTable {change : Table → Table} {asked : String}
    (hname : ∀ table, (change table).name = table.name) :
    findTable? (changeTable name change tables) asked =
      (findTable? tables asked).map fun table =>
        if table.name = name then change table else table := by
  induction tables with
  | nil => rfl
  | cons found rest ih =>
    by_cases hfound : found.name = name
    · rw [changeTable, if_pos hfound, findTable?_cons, findTable?_cons, hname]
      split
      · rw [Option.map_some, if_pos hfound]
      · next hasked =>
        -- A table further on has the name that is asked for, which is another one.
        cases hrest : findTable? rest asked with
        | none => rfl
        | some table =>
          have hother : table.name ≠ name := by
            rw [name_of_findTable? hrest, ← hfound]
            exact Ne.symm hasked
          rw [Option.map_some, if_neg hother]
    · rw [changeTable, if_neg hfound, findTable?_cons, findTable?_cons, ih]
      split
      · rw [Option.map_some, if_neg hfound]
      · rfl

theorem columnNamed?_setConstraint {asked : String} :
    (table.setConstraint columnName place new).columnNamed? asked =
      (table.columnNamed? asked).map fun column =>
        if column.name = columnName then
          { column with constraints := column.constraints.set place new }
        else column :=
  columnNamed?_updateColumn fun _ h => h

theorem constraintAt?_setConstraint {asked askedColumn : String} {askedPlace : Nat} :
    constraintAt? (changeTable name (fun table => table.setConstraint columnName place new) tables)
        asked askedColumn askedPlace =
      (constraintAt? tables asked askedColumn askedPlace).map fun c =>
        if asked = name ∧ askedColumn = columnName ∧ askedPlace = place then new else c := by
  have hkept : ∀ table : Table, (table.setConstraint columnName place new).name = table.name :=
    fun _ => rfl
  rw [constraintAt?, constraintAt?, findTable?_changeTable hkept]
  cases hfound : findTable? tables asked with
  | none => rfl
  | some table =>
    rw [Option.map_some, Option.bind_some, Option.bind_some, name_of_findTable? hfound]
    by_cases hname : asked = name
    · rw [if_pos hname, columnNamed?_setConstraint]
      cases hnamed : table.columnNamed? askedColumn with
      | none => rfl
      | some column =>
        rw [Option.map_some, Option.bind_some, Option.bind_some,
          (Table.mem_of_columnNamed? hnamed).2]
        by_cases hcolumn : askedColumn = columnName
        · by_cases hplace : askedPlace = place
          · simp [hname, hcolumn, hplace, List.getElem?_set_self', Function.const_def]
          · simp [hcolumn, hplace, List.getElem?_set_ne (Ne.symm hplace)]
        · simp [hcolumn]
    · simp [hname]

/-! ### The constraints of a column -/

namespace Column

variable {value : Value}

/-- Whether the values of a column are checked against one of its constraints.  Foreign keys count
that lead away from the column, and not those that lead to it. -/
def asks (column : Column) (c : Constraint) : Bool := c.isKeyed || c.target == column.key

theorem asks_withoutCache (column : Column) (c : Constraint) :
    column.withoutCaches.asks c.withoutCache = column.asks c := by
  rw [asks, Database.isKeyed_withoutCache, Database.target_withoutCache]
  rfl

/-- What the caches of a column have to hold so that its constraints allow a value without reading:
no value of a unique constraint, and one of each foreign key that leads away from the column. -/
structure Allows (column : Column) (value : Value) : Prop where
  fresh : ∀ u, .unique u ∈ column.constraints ∨ .primary u ∈ column.constraints →
    ∃ present, u.cache = some present ∧ value.isIn present = false
  known : ∀ key, .foreign key ∈ column.constraints → key.target = column.key →
    ∃ keys, key.cache = some keys ∧ value.isIn keys = true
  indexed : ∀ i, .index i ∈ column.constraints → i.cache.isSome = true

theorem unique_allows_iff {u : Unique} : u.cache.isSome = true ∧
      (if value.isIn (u.cache.getD []) then .error (.constraint (.notUnique value u.target))
        else .ok () : Except Error Unit) = .ok () ↔
    ∃ present, u.cache = some present ∧ value.isIn present = false := by
  cases u.cache <;> simp

theorem foreign_allows_iff {key : ForeignKey} : key.cache.isSome = true ∧
      (if value.isIn (key.cache.getD []) then .ok ()
        else .error (.constraint (.notAKey value key.foreign)) : Except Error Unit) = .ok () ↔
    ∃ keys, key.cache = some keys ∧ value.isIn keys = true := by
  cases key.cache <;> simp

theorem allows_iff {column : Column} : column.Allows value ↔
    ∀ c ∈ column.constraints, column.asks c = true →
      c.isFilled = true ∧ c.verdict value = .ok () := by
  constructor
  · intro h c hc hasks
    cases c with
    | index i => exact ⟨h.indexed i hc, rfl⟩
    | unique u => exact unique_allows_iff.mpr (h.fresh u (.inl hc))
    | primary u => exact unique_allows_iff.mpr (h.fresh u (.inr hc))
    | foreign key =>
      have htarget : key.target = column.key := by
        simpa [asks, Constraint.isKeyed, Constraint.kind?, Constraint.target] using hasks
      exact foreign_allows_iff.mpr (h.known key hc htarget)
  · intro h
    refine ⟨?_, fun key hc htarget => ?_, fun i hc => (h _ hc rfl).1⟩
    · rintro u (hc | hc)
      · exact unique_allows_iff.mp (h _ hc rfl)
      · exact unique_allows_iff.mp (h _ hc rfl)
    · refine foreign_allows_iff.mp (h _ hc ?_)
      rw [asks, Bool.or_eq_true]
      exact .inr (beq_iff_eq.mpr htarget)

end Column

/-! ### What is learned -/

/-- Whether a registry has a column with a constraint at a place. -/
structure IsAt (tables : List Table) (name columnName : String) (place : Nat) (column : Column)
    (c : Constraint) : Prop where
  columnFound : columnAt? tables ⟨some name, columnName⟩ = some column
  constraintFound : column.constraints[place]? = some c

theorem IsAt.constraintAt? (h : IsAt tables name columnName place column c) :
    constraintAt? tables name columnName place = some c := by
  have hcolumn : (findTable? tables name).bind (fun table => table.columnNamed? columnName) =
      some column :=
    h.columnFound
  rw [SchemaQuery.constraintAt?, hcolumn, Option.bind_some, h.constraintFound]

theorem exists_isAt (h : constraintAt? tables name columnName place = some c) :
    ∃ column, IsAt tables name columnName place column c := by
  obtain ⟨column, hcolumn, hplace⟩ := Option.bind_eq_some_iff.mp h
  exact ⟨column, hcolumn, hplace⟩

theorem IsAt.unique {other : Column} {old : Constraint}
    (h : IsAt tables name columnName place column c)
    (h' : IsAt tables name columnName place other old) : other = column ∧ old = c := by
  cases h.columnFound.symm.trans h'.columnFound
  exact ⟨rfl, Option.some.inj (h'.constraintFound.symm.trans h.constraintFound)⟩

theorem columnAt?_withoutCaches {key : ColumnKey} :
    columnAt? (tables.map Table.withoutCaches) key =
      (columnAt? tables key).map Column.withoutCaches := by
  rw [columnAt?, columnAt?]
  cases key.table with
  | none => rfl
  | some owner =>
    rw [Option.bind_some, Option.bind_some, findTable?_withoutCaches]
    cases findTable? tables owner with
    | none => rfl
    | some table => exact columnNamed?_withoutCaches

theorem Alike.columnAt? {key : ColumnKey} (h : Alike learned tables) :
    (columnAt? learned key).map Column.withoutCaches = (SchemaQuery.columnAt? tables key).map
      Column.withoutCaches := by
  rw [← columnAt?_withoutCaches, ← columnAt?_withoutCaches, h]

/-- Registries that are alike have the same constraints at the same places. -/
theorem Alike.exists_isAt (h : Alike learned tables)
    (hat : IsAt learned name columnName place column c) : ∃ known old, IsAt tables name columnName
    place known old ∧ known.withoutCaches = column.withoutCaches ∧
      old.withoutCache = c.withoutCache := by
  obtain ⟨known, hknown, hsame⟩ := exists_of_map_eq_some h.columnAt? hat.columnFound
  have hconstraints : (column.constraints[place]?).map Constraint.withoutCache =
      (known.constraints[place]?).map Constraint.withoutCache := by
    rw [← List.getElem?_map, ← List.getElem?_map]
    exact congrArg (fun c : Column => c.constraints[place]?) hsame.symm
  obtain ⟨old, hold, hrule⟩ := exists_of_map_eq_some hconstraints hat.constraintFound
  exact ⟨known, old, ⟨hknown, hold⟩, hsame, hrule⟩

/-- Whether the constraint at a place is one that checks do not change: its cache is filled, or its
column does not ask for it. -/
def IsSettled (tables : List Table) (name columnName : String) (place : Nat) (c : Constraint) :
    Prop :=
  ∃ column, IsAt tables name columnName place column c ∧ (c.isFilled = true ∨ column.asks c = false)

theorem asks_eq_of_withoutCache {known : Column} {old : Constraint}
    (hcolumn : known.withoutCaches = column.withoutCaches)
    (hrule : old.withoutCache = c.withoutCache) :
    known.asks old = column.asks c := by
  rw [← Column.asks_withoutCache, hcolumn, hrule, Column.asks_withoutCache]

theorem IsSettled.of_alike (h : IsSettled tables name columnName place c)
    (halike : Alike learned tables) (hat : constraintAt? learned name columnName place = some c) :
    IsSettled learned name columnName place c := by
  obtain ⟨known, hknown, hsettled⟩ := h
  obtain ⟨column, hcolumn⟩ := exists_isAt hat
  obtain ⟨other, old, hold, hsame, hrule⟩ := halike.exists_isAt hcolumn
  obtain ⟨rfl, rfl⟩ := hknown.unique hold
  rw [asks_eq_of_withoutCache hsame hrule] at hsettled
  exact ⟨column, hcolumn, hsettled⟩

/-- Whether a registry comes from another one by filling empty caches of constraints that are asked
for. -/
structure Learns (tables learned : List Table) : Prop where
  alike : Alike learned tables
  kept : ∀ {name columnName place c}, IsSettled tables name columnName place c →
    IsSettled learned name columnName place c

theorem Learns.refl (tables : List Table) : Learns tables tables := ⟨rfl, id⟩

theorem Learns.trans (h : Learns tables learned) (hlast : Learns learned last) :
    Learns tables last :=
  ⟨hlast.alike.trans h.alike, fun hc => hlast.kept (h.kept hc)⟩

/-- A constraint that was settled is still there. -/
theorem Learns.eq_of_settled {known : Column} {old : Constraint} (h : Learns tables learned)
    (hold : IsAt tables name columnName place known old)
    (hnew : IsAt learned name columnName place column c)
    (hsettled : old.isFilled = true ∨ known.asks old = false) : c = old := by
  obtain ⟨_, hat, -⟩ := h.kept ⟨known, hold, hsettled⟩
  exact Option.some.inj (hnew.constraintAt?.symm.trans hat.constraintAt?)

/-- A constraint that was at a place can be put there again, if it was settled, and else one that
differs in its cache. -/
theorem Learns.setConstraint (h : Learns tables learned)
    (hnames : ∀ known ∈ tables, known.columnNames.Nodup)
    (hat : IsAt tables name columnName place column c) (hrule : new.withoutCache = c.withoutCache)
    (hkept : c.isFilled = true ∨ column.asks c = false → new = c) :
    Learns tables (changeTable name (fun table => table.setConstraint columnName place new)
      learned) := by
  have halike : Alike (changeTable name (fun table => table.setConstraint columnName place new)
      learned) tables := by
    refine h.alike.setConstraint hnames fun old hold => ?_
    cases hat.constraintAt?.symm.trans hold
    exact hrule.symm
  refine ⟨halike, fun {asked askedColumn askedPlace c'} hsettled => hsettled.of_alike halike ?_⟩
  obtain ⟨_, hlearned, -⟩ := h.kept hsettled
  rw [constraintAt?_setConstraint, hlearned.constraintAt?, Option.map_some]
  split
  · next hsame =>
    obtain ⟨rfl, rfl, rfl⟩ := hsame
    obtain ⟨known, hknown, hstays⟩ := hsettled
    obtain ⟨rfl, rfl⟩ := hat.unique hknown
    rw [hkept hstays]
  · rfl

/-- After a constraint has been put at a place, it is the one that is there. -/
theorem Learns.eq_of_setConstraint {other : Column} {found : Constraint} (h : Learns tables learned)
    (hat : IsAt tables name columnName place column c)
    (hnow : IsAt (changeTable name (fun table => table.setConstraint columnName place new) learned)
      name columnName place other found) : found = new := by
  obtain ⟨old, hold, -⟩ := exists_of_map_eq_some h.alike.constraintAt?.symm hat.constraintAt?
  have hplace := hnow.constraintAt?
  rw [constraintAt?_setConstraint, hold, Option.map_some, if_pos ⟨rfl, rfl, rfl⟩] at hplace
  exact (Option.some.inj hplace).symm

theorem changeTable_eq_self {change : Table → Table}
    (h : ∀ table, findTable? tables name = some table → change table = table) :
    changeTable name change tables = tables := by
  induction tables with
  | nil => rfl
  | cons found rest ih =>
    rw [changeTable]
    split
    · next hname => rw [h found (by rw [findTable?_cons, if_pos hname])]
    · next hname =>
      rw [ih fun table htable => h table (by rw [findTable?_cons, if_neg hname, htable])]

/-- The constraint of a place put there again changes nothing. -/
theorem changeTable_setConstraint_self (hnames : ∀ known ∈ tables, known.columnNames.Nodup)
    (hat : IsAt tables name columnName place column c) :
    changeTable name (fun table => table.setConstraint columnName place c) tables = tables := by
  refine changeTable_eq_self fun table hfound => ?_
  have hnamed : table.columnNamed? columnName = some column := by
    have hcolumn := hat.columnFound
    rwa [columnAt?, Option.bind_some, hfound, Option.bind_some] at hcolumn
  have hset : column.constraints.set place c = column.constraints := by
    obtain ⟨hlength, rfl⟩ := List.getElem?_eq_some_iff.mp hat.constraintFound
    exact List.set_getElem_self hlength
  have hsame : ∀ known ∈ table.columns, (if known.name = columnName then
      { known with constraints := known.constraints.set place c } else known) = known := by
    intro known hknown
    split
    · next hname =>
      have hfirst := Table.columnNamed?_of_mem (hnames table (mem_of_findTable? hfound)) hknown
      rw [hname, hnamed] at hfirst
      obtain rfl := Option.some.inj hfirst
      rw [hset]
    · rfl
  rw [Table.setConstraint, Table.updateColumn, List.map_congr_left hsame, List.map_id']

/-! ### Values that are permitted -/

/-- Whether a registry has a column that allows a value as its caches are. -/
def Permits (tables : List Table) (name label : String) (value : Value) : Prop :=
  ∃ table column, findTable? tables name = some table ∧ table.column? label = some column ∧
  column.Allows value

theorem Table.columnNamed?_of_column? {label : String} (h : table.column? label = some column) :
    table.columnNamed? column.name = some column := by
  have hnamed : ∀ asked, table.columnNamed? asked = some column →
      table.columnNamed? column.name = some column := by
    intro asked hasked
    rwa [(mem_of_columnNamed? hasked).2]
  rw [column?] at h
  split at h
  · next found hfound =>
    cases h
    exact hnamed _ hfound
  · obtain ⟨rest, -, hfound⟩ := Option.bind_eq_some_iff.mp h
    exact hnamed _ hfound

theorem columnAt?_of_column? {label : String} (hfound : findTable? tables name = some table)
    (hcolumn : table.column? label = some column) :
    columnAt? tables ⟨some name, column.name⟩ = some column := by
  rw [columnAt?, Option.bind_some, hfound, Option.bind_some]
  exact Table.columnNamed?_of_column? hcolumn

theorem column?_withoutCaches {label : String} :
    table.withoutCaches.column? label = (table.column? label).map Column.withoutCaches := by
  have hname : table.withoutCaches.name = table.name := rfl
  rw [Table.column?, Table.column?, columnNamed?_withoutCaches, hname]
  cases table.columnNamed? label with
  | some column => rfl
  | none =>
    cases Text.after? (table.name ++ ".") label with
    | none => rfl
    | some rest => exact columnNamed?_withoutCaches

/-- The column of a registry in one that is like it. -/
theorem exists_column?_of_alike {label : String} (h : Alike learned tables)
    (hfound : findTable? tables name = some table) (hcolumn : table.column? label = some column) :
    ∃ other found, findTable? learned name = some other ∧ other.column? label = some found ∧
      found.withoutCaches = column.withoutCaches := by
  obtain ⟨other, hother, hsame⟩ := exists_of_map_eq_some h.findTable?.symm hfound
  have hcolumns : (table.column? label).map Column.withoutCaches =
      (other.column? label).map Column.withoutCaches := by
    rw [← column?_withoutCaches, ← column?_withoutCaches, hsame]
  obtain ⟨found, hfound, hsameColumn⟩ := exists_of_map_eq_some hcolumns hcolumn
  exact ⟨other, found, hother, hfound, hsameColumn⟩

/-- A value is permitted where the constraints that its column asks for allow it, each at the place
that it has in a registry that is like this one. -/
theorem permits_of_alike {label : String} {value : Value} (h : Alike learned tables)
    (hfound : findTable? tables name = some table) (hcolumn : table.column? label = some column)
    (hallows : ∀ {place old found c}, IsAt tables name column.name place column old →
      column.asks old = true → IsAt learned name column.name place found c →
      c.isFilled = true ∧ c.verdict value = .ok ()) :
    Permits learned name label value := by
  obtain ⟨other, found, hother, hlabel, hsame⟩ := exists_column?_of_alike h hfound hcolumn
  refine ⟨other, found, hother, hlabel, Column.allows_iff.mpr fun c hc hasks => ?_⟩
  obtain ⟨place, hplace⟩ := List.getElem?_of_mem hc
  have hname : found.name = column.name := (congrArg Column.name hsame :)
  have hnow : IsAt learned name column.name place found c := by
    rw [← hname]
    exact ⟨columnAt?_of_column? hother hlabel, hplace⟩
  obtain ⟨known, old, hold, hknown, hrule⟩ := h.exists_isAt hnow
  obtain rfl : column = known :=
    Option.some.inj ((columnAt?_of_column? hfound hcolumn).symm.trans hold.columnFound)
  exact hallows hold (by rw [asks_eq_of_withoutCache hknown hrule, hasks]) hnow

/-- A registry that has learned more still permits what it permitted. -/
theorem Permits.of_learns {label : String} {value : Value} (h : Permits tables name label value)
    (hlearns : Learns tables learned) : Permits learned name label value := by
  obtain ⟨table, column, hfound, hcolumn, hallows⟩ := h
  refine permits_of_alike hlearns.alike hfound hcolumn fun {place old found c} hold hasks hnow => ?_
  have hpasses := Column.allows_iff.mp hallows old (List.mem_of_getElem? hold.constraintFound) hasks
  rw [hlearns.eq_of_settled hold hnow (.inl hpasses.1)]
  exact hpasses

end SchemaQuery
