import SchemaQuery.Proofs.Database.Session

/-! A foreign key in the registry, from its linking on.  Descriptions do not report it: each new
snapshot copies it from the old one, by the name of its column, on either side of the key.  It is
neither lost nor noted twice as long as its columns are there and nobody drops it, links it again or
takes a table away. -/

namespace SchemaQuery

open Database

variable {tables before after : List Table} {table : Table} {column old : Column}
  {place : ColumnKey} {key added : ForeignKey} {name other : String} {dropped : Option Constraint}
  {ε : Type} {engine : Engine ε} {database middle last : Database ε}

/-! ### Counting the notes of a key -/

/-- How often a column holds a foreign key. -/
def Column.keyCount (column : Column) (key : ForeignKey) : Nat :=
  column.constraints.countP (Constraint.foreign key).same

/-- How often the column at a place of a registry holds a foreign key. -/
def holdCount (tables : List Table) (place : ColumnKey) (key : ForeignKey) : Nat :=
  (columnAt? tables place).elim 0 fun column => column.keyCount key

theorem holdCount_congr (h : columnAt? after place = columnAt? before place) :
    holdCount after place key = holdCount before place key := by
  rw [holdCount, holdCount, h]

theorem holdCount_of_columnAt? (h : columnAt? tables place = some column) :
    holdCount tables place key = column.keyCount key := by
  rw [holdCount, h, Option.elim_some]

/-- Nothing but a foreign key is the same as one. -/
theorem foreign_of_same {c : Constraint} (h : (Constraint.foreign key).same c = true) :
    ∃ other, c = .foreign other ∧ { key with cache := none } = { other with cache := none } := by
  have heq := eq_of_beq h
  cases c with
  | foreign other => exact ⟨other, rfl, Constraint.foreign.inj heq⟩
  | _ => cases heq

theorem eq_of_same (hkey : key.cache = none) (hadded : added.cache = none)
    (h : (Constraint.foreign key).same (.foreign added) = true) : key = added := by
  obtain ⟨other, hother, heq⟩ := foreign_of_same h
  cases hother
  cases key
  cases added
  simp_all

theorem same_trans {a b c : Constraint} (h : a.same b = true) (h' : b.same c = true) :
    a.same c = true := by
  rw [Constraint.same, beq_iff_eq] at h h' ⊢
  rw [h, h']

namespace Column

theorem keyCount_of_noForeign (h : ∀ other, .foreign other ∉ column.constraints) :
    column.keyCount key = 0 := by
  refine List.countP_eq_zero.mpr fun c hc hsame => ?_
  obtain ⟨other, rfl, -⟩ := foreign_of_same hsame
  exact h other hc

/-- A described column gets the keys of its former snapshot, each as often as it was there. -/
theorem keyCount_carried (hnone : ∀ other, .foreign other ∉ column.constraints)
    (hkept : ¬Drops dropped key) :
    ((old.foreignKeys.filter fun c => !dropped.any c.same).foldl attach column).keyCount key =
      old.keyCount key := by
  have hkinds : ∀ c ∈ old.foreignKeys.filter fun c => !dropped.any c.same, c.kind? = none := by
    intro c hc
    exact Option.isNone_iff_eq_none.mp (List.mem_filter.mp (List.mem_of_mem_filter hc)).2
  have hcarries : ∀ c : Constraint, (Constraint.foreign key).same c = true →
      (!dropped.any c.same) = true ∧ c.kind?.isNone = true := by
    intro c hsame
    obtain ⟨other, rfl, -⟩ := foreign_of_same hsame
    refine ⟨?_, rfl⟩
    cases dropped with
    | none => rfl
    | some dropped =>
      rw [Option.any_some, Bool.not_eq_true', Bool.eq_false_iff]
      exact fun hdrop => hkept ⟨dropped, rfl, same_trans hsame hdrop⟩
  have hown : column.constraints.countP (Constraint.foreign key).same = 0 :=
    keyCount_of_noForeign hnone
  rw [foldl_attach_foreignKeys hkinds, keyCount, List.countP_append, hown, Nat.zero_add,
    foreignKeys, List.countP_filter, List.countP_filter]
  refine List.countP_congr fun c _ => ?_
  constructor
  · intro h
    exact (Bool.and_eq_true_iff.mp (Bool.and_eq_true_iff.mp h).1).1
  · intro hsame
    obtain ⟨hdropped, hforeign⟩ := hcarries c hsame
    rw [hsame, hdropped, hforeign]
    rfl

/-- A link of another key is no note of this one. -/
theorem keyCount_attach (h : (Constraint.foreign key).same (.foreign added) = false) :
    (column.attach (.foreign added)).keyCount key = column.keyCount key := by
  rw [attach_foreign, keyCount, List.countP_append, List.countP_singleton, h]
  rfl

theorem keyCount_referencedBy (h : (Constraint.foreign key).same (.foreign added) = false) :
    (column.referencedBy added).keyCount key = column.keyCount key := by
  rw [referencedBy]
  cases hfind : column.find? (.kind .index) with
  | some c =>
    rw [keyCount, List.countP_append, List.countP_singleton, h]
    rfl
  | none =>
    rw [attach_index (isKeyed_of_find?_index hfind)]
    change (column.constraints ++ [_] ++ [_]).countP _ = _
    rw [List.countP_append, List.countP_append, List.countP_singleton, List.countP_singleton, h]
    rfl

/-- A column that is referred to has a keyed constraint. -/
theorem exists_isKeyed_referencedBy (column : Column) (key : ForeignKey) :
    ∃ c ∈ (column.referencedBy key).constraints, c.isKeyed = true := by
  rw [referencedBy]
  cases hfind : column.find? (.kind .index) with
  | some found =>
    obtain ⟨place, hplace, hfound⟩ := Option.bind_eq_some_iff.mp hfind
    exact ⟨found, List.mem_append_left _ (List.mem_of_getElem? hfound),
      Constraint.isKeyed_of_findIndex hplace hfound⟩
  | none =>
    rw [attach_index (isKeyed_of_find?_index hfind)]
    exact ⟨Constraint.keyed .index column.key none, by simp, rfl⟩

end Column

/-! ### Refreshes -/

theorem Column.owner_foldl_attach (column : Column) (keys : List Constraint) :
    (keys.foldl attach column).owner = column.owner := by
  induction keys generalizing column with
  | nil => rfl
  | cons c rest ih => exact ih (column.attach c)

theorem columnAt?_of_findTable?_none (h : findTable? tables name = none)
    (hplace : place.table = some name) : columnAt? tables place = none := by
  rw [columnAt?, hplace, Option.bind_some, h, Option.bind_none]

/-- A new snapshot holds a key as often as the old one, at every column that it has. -/
theorem holdCount_renewed (hd : table.IsDescribed name) (hkept : ¬Drops dropped key)
    (hleft : (columnAt? (putTable tables (renewed (findTable? tables name) dropped table))
      place).isSome) :
    holdCount (putTable tables (renewed (findTable? tables name) dropped table)) place key =
      holdCount tables place key := by
  have hname : (renewed (findTable? tables name) dropped table).name = name := by
    rw [name_renewed, hd.name]
  by_cases hplace : place.table = some name
  · have hat : columnAt? (putTable tables (renewed (findTable? tables name) dropped table)) place =
        (renewed (findTable? tables name) dropped table).columnNamed? place.column := by
      rw [columnAt?_putTable, hname, if_pos hplace]
    obtain ⟨column, hcolumn⟩ := Option.isSome_iff_exists.mp hleft
    rw [holdCount_of_columnAt? hcolumn]
    obtain ⟨hmem, hcname⟩ := Table.mem_of_columnNamed? (hat.symm.trans hcolumn)
    cases hformer : findTable? tables name with
    | none =>
      rw [hformer] at hmem
      rw [holdCount, columnAt?_of_findTable?_none hformer hplace]
      exact Column.keyCount_of_noForeign (hd.noForeign column hmem)
    | some former =>
      rw [hformer] at hmem
      obtain ⟨described, hdescribed, rfl⟩ := List.mem_map.mp hmem
      have hnone := hd.noForeign described hdescribed
      have hbefore : columnAt? tables place = former.columnNamed? place.column := by
        rw [columnAt?, hplace, Option.bind_some, hformer, Option.bind_some]
      rw [holdCount, hbefore]
      cases hold : former.columnNamed? described.name with
      | none =>
        simp only [hold] at hcname ⊢
        rw [← hcname, hold]
        exact Column.keyCount_of_noForeign hnone
      | some old =>
        simp only [hold, Column.name_foldl_attach] at hcname ⊢
        rw [← hcname, hold]
        exact Column.keyCount_carried hnone hkept
  · refine holdCount_congr ?_
    rw [columnAt?_putTable, hname, if_neg hplace]

namespace Database

theorem holdCount_refreshTable (hkept : ¬Drops dropped key)
    (hrun : outcome (refreshTable engine name dropped) database = (.ok (), last))
    (hleft : (columnAt? last.tables place).isSome) :
    holdCount last.tables place key = holdCount database.tables place key := by
  obtain ⟨table, hdescribed, htables⟩ := exists_described_of_refreshTable hrun
  rw [htables] at hleft ⊢
  exact holdCount_renewed hdescribed hkept hleft

/-- Two refreshes of different tables: a place is changed by one of them at most. -/
theorem holdCount_refreshTable_twice (hne : name ≠ other) (hkept : ¬Drops dropped key)
    (hrun : outcome (refreshTable engine name dropped) database = (.ok (), middle))
    (hrun' : outcome (refreshTable engine other dropped) middle = (.ok (), last))
    (hleft : (columnAt? last.tables place).isSome) :
    holdCount last.tables place key = holdCount database.tables place key := by
  by_cases hplace : place.table = some other
  · have hother : place.table ≠ some name := fun h => hne (Option.some.inj (h.symm.trans hplace))
    rw [holdCount_refreshTable hkept hrun' hleft,
      holdCount_congr ((carries_refreshTable hrun).2 place hother)]
  · have hkeeps := (carries_refreshTable hrun').2 place hplace
    rw [hkeeps] at hleft
    rw [holdCount_congr hkeeps, holdCount_refreshTable hkept hrun hleft]

/-- Whether the columns of a table carry the name of their table. -/
def OwnColumns (tables : List Table) (name : String) : Prop :=
  ∀ place column, place.table = some name → columnAt? tables place = some column →
  column.key = place

theorem OwnColumns.congr (h : OwnColumns before name)
    (hkept : ∀ place : ColumnKey, place.table = some name →
      columnAt? after place = columnAt? before place) :
    OwnColumns after name :=
  fun place column hplace hc => h place column hplace (hkept place hplace ▸ hc)

theorem ownColumns_refreshTable
    (hrun : outcome (refreshTable engine name dropped) database = (.ok (), last)) :
    OwnColumns last.tables name := by
  obtain ⟨table, hdescribed, htables⟩ := exists_described_of_refreshTable hrun
  have hname : (renewed (database.table? name) dropped table).name = name := by
    rw [name_renewed, hdescribed.name]
  have howned : ∀ column ∈ table.columns, column.owner = some name := by
    intro column hc
    rw [hdescribed.consistent.owned column hc, hdescribed.name]
  have hrenewed : ∀ column ∈ (renewed (database.table? name) dropped table).columns,
      column.owner = some name := by
    cases database.table? name with
    | none => exact howned
    | some former =>
      refine List.forall_mem_map.mpr fun column hc => ?_
      split
      · rw [Column.owner_foldl_attach, howned column hc]
      · exact howned column hc
  intro place column hplace hc
  rw [htables, columnAt?_putTable, hname, if_pos hplace] at hc
  obtain ⟨hmem, hcname⟩ := Table.mem_of_columnNamed? hc
  rw [Column.key, hrenewed column hmem, hcname, ← hplace]

end Database

/-! ### Linking -/

/-- The foreign key between two columns that gets the name asked for, or its own. -/
def ForeignKey.between (asked : Option String) (target foreign : ColumnKey) : ForeignKey :=
  { name := asked.getD (defaultName target foreign), target, foreign }

theorem Column.eq_of_link {other : Column} {asked : Option String}
    {linked : ForeignKey × Column × Column} (h : column.link other asked = .ok linked) :
    linked.2.1 = column.attach (.foreign (.between asked column.key other.key)) ∧
      linked.2.2 = other.referencedBy (.between asked column.key other.key) := by
  obtain ⟨key, hmake, rfl⟩ := map_eq_ok_iff.mp h
  rw [ForeignKey.make] at hmake
  split at hmake <;> cases hmake
  exact ⟨rfl, rfl⟩

/-- Whether a key has been noted on the columns at both of its ends, and nothing else has
changed. -/
structure Linked (key : ForeignKey) (before after : List Table) : Prop where
  target : ∃ column, columnAt? before key.target = some column ∧
    columnAt? after key.target = some (column.attach (.foreign key))
  foreign : ∃ column, columnAt? before key.foreign = some column ∧
    columnAt? after key.foreign = some (column.referencedBy key)
  apart : ∀ place, place ≠ key.target → place ≠ key.foreign →
    columnAt? after place = columnAt? before place

theorem Linked.holds (h : Linked key before after) :
    Holds after key.target key ∧ Holds after key.foreign key := by
  obtain ⟨column, -, htarget⟩ := h.target
  obtain ⟨other, -, hforeign⟩ := h.foreign
  refine ⟨⟨_, htarget, ?_⟩, ⟨_, hforeign, ?_⟩⟩
  · rw [Column.attach_foreign]
    exact List.mem_append_right _ List.mem_cons_self
  · rw [Column.referencedBy]
    exact List.mem_append_right _ List.mem_cons_self

theorem Linked.isSome (h : Linked key before after) (place : ColumnKey) :
    (columnAt? after place).isSome = (columnAt? before place).isSome := by
  by_cases htarget : place = key.target
  · obtain ⟨column, hbefore, hafter⟩ := h.target
    rw [htarget, hbefore, hafter]
    rfl
  · by_cases hforeign : place = key.foreign
    · obtain ⟨column, hbefore, hafter⟩ := h.foreign
      rw [hforeign, hbefore, hafter]
      rfl
    · rw [h.apart place htarget hforeign]

/-- A link concerns no key but its own. -/
theorem Linked.holdCount (h : Linked added before after)
    (hne : (Constraint.foreign key).same (.foreign added) = false) (place : ColumnKey) :
    holdCount after place key = holdCount before place key := by
  by_cases htarget : place = added.target
  · obtain ⟨column, hbefore, hafter⟩ := h.target
    rw [htarget, holdCount_of_columnAt? hbefore, holdCount_of_columnAt? hafter,
      Column.keyCount_attach hne]
  · by_cases hforeign : place = added.foreign
    · obtain ⟨column, hbefore, hafter⟩ := h.foreign
      rw [hforeign, holdCount_of_columnAt? hbefore, holdCount_of_columnAt? hafter,
        Column.keyCount_referencedBy hne]
    · exact holdCount_congr (h.apart place htarget hforeign)

/-- A column is replaced at its place and nowhere else. -/
theorem columnAt?_updateColumn_eq {new : Column}
    (hfound : findTable? tables table.name = some table)
    (hc : table.columnNamed? name = some column) (hname : new.name = name) :
    columnAt? (putTable tables (table.updateColumn name fun _ => new)) place =
      if place = ⟨some table.name, name⟩ then some new else columnAt? tables place := by
  rw [columnAt?_updateColumn hfound hname]
  by_cases hplace : place.table = some table.name
  · have hat : columnAt? tables place = table.columnNamed? place.column := by
      rw [columnAt?, hplace, Option.bind_some, hfound, Option.bind_some]
    rw [if_pos hplace, hat]
    by_cases hcolumn : place.column = name
    · have hsame : place = ⟨some table.name, name⟩ := by rw [← hplace, ← hcolumn]
      rw [if_pos hsame, hcolumn, hc, Option.map_some, if_pos (Table.mem_of_columnNamed? hc).2]
    · rw [if_neg fun hsame => hcolumn (congrArg ColumnKey.column hsame)]
      cases hother : table.columnNamed? place.column with
      | none => rfl
      | some other =>
        rw [Option.map_some, if_neg]
        rw [(Table.mem_of_columnNamed? hother).2]
        exact hcolumn
  · rw [if_neg hplace, if_neg fun hsame => hplace (congrArg ColumnKey.table hsame)]

namespace Database

theorem linked_linkForeignKey {foreignTable columnName foreignColumn : String}
    {asked : Option String} (hne : name ≠ foreignTable) (hown : OwnColumns database.tables name)
    (hown' : OwnColumns database.tables foreignTable)
    (hrun : outcome (linkForeignKey name columnName foreignTable foreignColumn asked) database =
      (.ok (), last)) :
    Linked (.between asked ⟨some name, columnName⟩ ⟨some foreignTable, foreignColumn⟩)
      database.tables last.tables := by
  obtain ⟨e, hfails⟩ | ⟨target, foreign, ht, hf, referencing, referenced, hc, hr, linked, hl,
    hlinked⟩ := outcome_linkForeignKey database name columnName foreignTable foreignColumn asked
  · cases hfails.symm.trans hrun
  · cases hlinked.symm.trans hrun
    obtain rfl := name_of_findTable? ht
    obtain rfl := name_of_findTable? hf
    have hat : columnAt? database.tables ⟨some target.name, columnName⟩ = some referencing := by
      rw [columnAt?, Option.bind_some, ← hc]
      exact congrArg (Option.bind · _) ht
    have hat' : columnAt? database.tables ⟨some foreign.name, foreignColumn⟩ = some referenced := by
      rw [columnAt?, Option.bind_some, ← hr]
      exact congrArg (Option.bind · _) hf
    obtain ⟨hnew, hnew'⟩ := Column.eq_of_link hl
    rw [hown _ _ rfl hat, hown' _ _ rfl hat'] at hnew hnew'
    have hname : linked.2.1.name = columnName := by
      rw [hnew]
      exact (Table.mem_of_columnNamed? hc).2
    have hname' : linked.2.2.name = foreignColumn := by
      obtain ⟨indexed, hreferenced, hkey, -⟩ := Column.referencedBy_eq referenced
        (.between asked ⟨some target.name, columnName⟩ ⟨some foreign.name, foreignColumn⟩)
      rw [hnew', hreferenced]
      exact (congrArg ColumnKey.column hkey).trans (Table.mem_of_columnNamed? hr).2
    have hfound : findTable? (putTable database.tables
        (target.updateColumn columnName fun _ => linked.2.1)) foreign.name = some foreign := by
      rw [findTable?_putTable]
      exact (if_neg hne).trans hf
    have hwritten : ∀ place, columnAt?
        (putTable (putTable database.tables (target.updateColumn columnName fun _ => linked.2.1))
          (foreign.updateColumn foreignColumn fun _ => linked.2.2)) place =
        if place = ⟨some foreign.name, foreignColumn⟩ then some linked.2.2
        else if place = ⟨some target.name, columnName⟩ then some linked.2.1
        else columnAt? database.tables place := by
      intro place
      rw [columnAt?_updateColumn_eq hfound hr hname', columnAt?_updateColumn_eq ht hc hname]
    have hplaces : (⟨some target.name, columnName⟩ : ColumnKey) ≠
        ⟨some foreign.name, foreignColumn⟩ :=
      fun h => hne (Option.some.inj (congrArg ColumnKey.table h))
    refine ⟨⟨referencing, hat, ?_⟩, ⟨referenced, hat', ?_⟩, fun place htarget hforeign => ?_⟩
    · refine (hwritten _).trans ?_
      rw [ForeignKey.between, if_neg hplaces, if_pos rfl, hnew]
      rfl
    · refine (hwritten _).trans ?_
      rw [ForeignKey.between, if_pos rfl, hnew']
      rfl
    · exact (hwritten place).trans ((if_neg hforeign).trans (if_neg htarget))

/-- A link describes both tables again and then notes the key. -/
theorem linked_linkChange {column foreign : ColumnRef} {asked : Option String} {known : Table}
    {target : Column} {foreignTable foreignColumn : String}
    (hknown : database.table? name = some known)
    (hresolve : known.resolve column = .ok target)
    (hsplit : foreign.splitQualified = .ok (foreignTable, foreignColumn))
    (hne : name ≠ foreignTable)
    (hrun : outcome ((RegistryChange.link column foreign asked).apply engine name) database =
      (.ok (), last)) :
    ∃ refreshed, Linked (.between asked ⟨some name, target.name⟩ ⟨some foreignTable, foreignColumn⟩)
        refreshed last.tables ∧
      ∀ place key, (columnAt? refreshed place).isSome →
        holdCount refreshed place key = holdCount database.tables place key := by
  rw [RegistryChange.apply, outcome_applyForeignKey hknown hresolve hsplit] at hrun
  obtain ⟨_, first, hfirst, hrun⟩ := exists_outcome_of_bind hrun
  obtain ⟨_, second, hsecond, hlink⟩ := exists_outcome_of_bind hrun
  have hown : OwnColumns second.tables name := by
    refine (ownColumns_refreshTable hfirst).congr fun place hplace => ?_
    exact (carries_refreshTable hsecond).2 place fun h =>
      hne (Option.some.inj (hplace.symm.trans h))
  refine ⟨second.tables, linked_linkForeignKey hne hown (ownColumns_refreshTable hsecond) hlink, ?_⟩
  intro place key hleft
  have hnone : ¬Drops none key := by simp [Drops]
  exact holdCount_refreshTable_twice hne hnone hfirst hsecond hleft

end Database

/-! ### Submissions -/

/-- The foreign key that a request links. -/
def Request.linkedKey? (request : Request) (tables : List Table) : Option ForeignKey :=
  if Method.ofText request.method = .ok (.addConstraint .foreign) then
    match request.fields, request.modifiers.foreign with
    | .column column, some foreign => do
      let target ← (← findTable? tables request.table.name).resolve? column
      let (foreignTable, foreignColumn) ← foreign.splitQualified.toOption
      return .between request.modifiers.name ⟨some request.table.name, target.name⟩
        ⟨some foreignTable, foreignColumn⟩
    | _, _ => none
  else none

/-- Whether a request takes a table out of the registry, or gives it another name. -/
def Request.removes (request : Request) (name : String) : Prop :=
  request.table.name = name ∧ (Method.ofText request.method = .ok .renameTable ∨
    ∃ temporary, Method.ofText request.method = .ok (.dropTable temporary))

namespace Database

variable {request : Request} {output : Output}

/-- A valid request for a foreign key links the one that it names. -/
theorem linked_of_validate {resolved : Resolved} {state : ε} {column foreign : ColumnRef}
    {asked : Option String} (hvalid : request.validate (database.catalog engine) = .ok resolved)
    (hchange : registryChange resolved.method request = .link column foreign asked)
    (hrun : outcome ((RegistryChange.link column foreign asked).apply engine request.table.name)
      (database.withEngine state) = (.ok (), last)) :
    ∃ added refreshed, request.linkedKey? database.tables = some added ∧ added.cache = none ∧
      Linked added refreshed last.tables ∧
      ∀ place key, (columnAt? refreshed place).isSome →
        holdCount refreshed place key = holdCount database.tables place key := by
  obtain ⟨hmethod, hfields, hforeign⟩ := eq_of_registryChange_link hchange
  have hasked : asked = request.modifiers.name := by
    unfold registryChange at hchange
    split at hchange <;> cases hchange
    rfl
  obtain ⟨known, target, hknown, hresolve, foreignTable, foreignColumn, other, hsplit, hne, -⟩ :=
    Request.foreign_of_validate hvalid hmethod hfields hforeign
  have hknown' : (database.withEngine state).table? request.table.name = some known := hknown
  obtain ⟨refreshed, hlinked, hcounts⟩ := linked_linkChange hknown' hresolve hsplit hne.symm hrun
  have hspelled : Method.ofText request.method = .ok (.addConstraint .foreign) :=
    hmethod ▸ spelled_of_validate hvalid
  refine ⟨_, refreshed, ?_, rfl, hlinked, hcounts⟩
  have hfound : findTable? database.tables request.table.name = some known := hknown
  have hresolved : known.resolve? column = some target := Table.resolve_eq_ok_iff.mp hresolve
  rw [Request.linkedKey?, if_pos hspelled]
  simp only [hfields, hforeign, hfound, Option.bind_eq_bind, Option.bind_some, hresolved,
    hsplit, hasked]
  rfl

theorem table_ne_of_isSome (hleft : (columnAt? tables place).isSome)
    (hfree : findTable? tables name = none) : place.table ≠ some name := by
  intro hplace
  rw [columnAt?_of_findTable?_none hfree hplace] at hleft
  cases hleft

theorem columnAt?_eraseP_of_ne (hplace : place.table ≠ some name) :
    columnAt? (tables.eraseP fun table => table.name == name) place = columnAt? tables place := by
  rw [columnAt?, columnAt?]
  cases howner : place.table with
  | none => rfl
  | some owner =>
    have hne : name ≠ owner := fun h => hplace (by rw [howner, h])
    rw [Option.bind_some, Option.bind_some, findTable?_eraseP_of_ne hne]

theorem columnAt?_loadTable {temporary : Bool}
    (hrun : outcome (loadTable engine name temporary) database = (.ok (), last))
    (hplace : place.table ≠ some name) :
    columnAt? last.tables place = columnAt? database.tables place := by
  obtain ⟨table, hdescribed, htables⟩ := exists_described_of_loadTable hrun
  have hname : ({ table with temporary } : Table).name = name := hdescribed.name
  rw [htables, columnAt?_putTable, hname, if_neg hplace]

/-- What a successful submission leaves of a key at a column that was there before and still is. -/
theorem holdCount_submit (hcache : key.cache = none)
    (hrun : outcome (submit engine request) database = (.ok output, last))
    (hdrops : ¬request.dropsKey key) (hlinks : request.linkedKey? database.tables ≠ some key)
    (hremoves : ∀ name, place.table = some name → ¬request.removes name)
    (hbefore : (columnAt? database.tables place).isSome)
    (hleft : (columnAt? last.tables place).isSome) :
    holdCount last.tables place key = holdCount database.tables place key := by
  obtain ⟨resolved, hvalid, hcases⟩ := submit_ok_cases hrun
  obtain ⟨-, htables⟩ | ⟨-, state, happly⟩ := hcases
  · rw [htables]
  change holdCount last.tables place key = holdCount (database.withEngine state).tables place key
  have hfree := free_of_validate hvalid
  cases hchange : registryChange resolved.method request with
  | remove =>
    have hplace : place.table ≠ some request.table.name := by
      intro hplace
      obtain ⟨temporary, hmethod⟩ := eq_of_registryChange_remove hchange
      exact hremoves _ hplace ⟨rfl, .inr ⟨temporary, hmethod ▸ spelled_of_validate hvalid⟩⟩
    rw [hchange] at happly
    cases happly
    exact holdCount_congr (columnAt?_eraseP_of_ne hplace)
  | rename new =>
    have hplace : place.table ≠ some request.table.name := by
      intro hplace
      have hmethod := (eq_of_registryChange_rename hchange).1
      exact hremoves _ hplace ⟨rfl, .inl (hmethod ▸ spelled_of_validate hvalid)⟩
    have hnew : place.table ≠ some new := table_ne_of_isSome hbefore (hfree.1 new hchange)
    rw [hchange] at happly
    obtain ⟨former, middle, hremove, hload⟩ := exists_outcome_of_bind happly
    cases hremove
    exact holdCount_congr ((columnAt?_loadTable hload hnew).trans (columnAt?_eraseP_of_ne hplace))
  | create temporary =>
    have hnew : place.table ≠ some request.table.name :=
      table_ne_of_isSome hbefore (hfree.2 temporary hchange)
    rw [hchange] at happly
    exact holdCount_congr (columnAt?_loadTable happly hnew)
  | refresh =>
    rw [hchange] at happly
    have hnone : ¬Drops none key := by simp [Drops]
    exact holdCount_refreshTable hnone happly hleft
  | link column foreign asked =>
    rw [hchange] at happly
    obtain ⟨added, refreshed, hadded, hnocache, hlinked, hcounts⟩ :=
      linked_of_validate hvalid hchange happly
    have hne : (Constraint.foreign key).same (.foreign added) = false := by
      rw [Bool.eq_false_iff]
      exact fun hsame => hlinks (eq_of_same hcache hnocache hsame ▸ hadded)
    have hthere : (columnAt? refreshed place).isSome = true :=
      (hlinked.isSome place).symm.trans hleft
    exact (hlinked.holdCount hne place).trans (hcounts place key hthere)
  | unlink dropped =>
    have hkept : ¬Drops (some dropped) key := by
      intro hdrop
      exact hdrops ((dropsKey_iff hvalid).mpr ⟨dropped, hchange, hdrop⟩)
    rw [hchange] at happly
    obtain ⟨middle, hfirst, ⟨rfl, -⟩ | ⟨other, foreignTable, rfl, -, hne, -, hsecond⟩⟩ :=
      applyDrop_cases happly
    · exact holdCount_refreshTable hkept hfirst hleft
    · exact holdCount_refreshTable_twice hne.symm hkept hfirst hsecond hleft

theorem registryChange_of_foreign {resolved : Resolved}
    (hvalid : request.validate (database.catalog engine) = .ok resolved)
    (hmethod : resolved.method = .addConstraint .foreign) :
    ∃ column foreign,
      registryChange resolved.method request = .link column foreign request.modifiers.name := by
  have hfields := Request.checkFields_of_validate hvalid
  rw [hmethod] at hfields
  obtain ⟨column, foreign, hcolumn, hforeign⟩ := Request.exists_of_checkAddition hfields
  exact ⟨column, foreign, by simp only [registryChange, hmethod, hcolumn, hforeign]⟩

/-! ### Runs after a link -/

/-- Whether a submission leaves a key alone: it does not drop it, does not link it, does not take
away or rename a table at one of its ends, and both of its columns are there afterwards. -/
structure Spares (key : ForeignKey) (request : Request) (before after : List Table) : Prop where
  drops : ¬request.dropsKey key
  links : request.linkedKey? before ≠ some key
  removes : ∀ name, key.target.table = some name ∨ key.foreign.table = some name →
    ¬request.removes name
  target : (columnAt? after key.target).isSome
  foreign : (columnAt? after key.foreign).isSome

/-- Runs of successful submissions that leave a key alone. -/
inductive Undisturbed (engine : Engine ε) (key : ForeignKey) (first : Database ε) :
    Database ε → Prop
  | refl : Undisturbed engine key first first
  | submitted {former next request output} (undisturbed : Undisturbed engine key first former)
    (run : outcome (submit engine request) former = (.ok output, next))
    (spares : Spares key request former.tables next.tables) : Undisturbed engine key first next

theorem Undisturbed.counts {first : Database ε} (h : Undisturbed engine key first last)
    (hcache : key.cache = none) (htarget : (columnAt? first.tables key.target).isSome)
    (hforeign : (columnAt? first.tables key.foreign).isSome) :
    ((columnAt? last.tables key.target).isSome ∧ (columnAt? last.tables key.foreign).isSome) ∧
      holdCount last.tables key.target key = holdCount first.tables key.target key ∧
        holdCount last.tables key.foreign key = holdCount first.tables key.foreign key := by
  induction h with
  | refl => exact ⟨⟨htarget, hforeign⟩, rfl, rfl⟩
  | submitted undisturbed run spares ih =>
    obtain ⟨⟨hformer, hformer'⟩, hcount, hcount'⟩ := ih
    have hkept := holdCount_submit hcache run spares.drops spares.links
      (fun name hplace => spares.removes name (.inl hplace)) hformer spares.target
    have hkept' := holdCount_submit hcache run spares.drops spares.links
      (fun name hplace => spares.removes name (.inr hplace)) hformer' spares.foreign
    exact ⟨⟨spares.target, spares.foreign⟩, hkept.trans hcount, hkept'.trans hcount'⟩

/-- A foreign key that has been added is noted on both of its columns, the one that it refers to has
a keyed constraint, and both hold the key equally often after any run that leaves it alone. -/
theorem linkedKey_stays {before linked : Database ε}
    (hmethod : Method.ofText request.method = .ok (.addConstraint .foreign))
    (hrun : outcome (submit engine request) before = (.ok output, linked)) :
    ∃ key, request.linkedKey? before.tables = some key ∧
      Holds linked.tables key.target key ∧ Holds linked.tables key.foreign key ∧
      (∃ column, columnAt? linked.tables key.foreign = some column ∧
        ∃ c ∈ column.constraints, c.isKeyed = true) ∧
      ∀ last, Undisturbed engine key linked last →
        holdCount last.tables key.target key = holdCount linked.tables key.target key ∧
          holdCount last.tables key.foreign key = holdCount linked.tables key.foreign key := by
  obtain ⟨resolved, hvalid, hcases⟩ := submit_ok_cases hrun
  have hresolved : resolved.method = .addConstraint .foreign :=
    Except.ok.inj ((spelled_of_validate hvalid).symm.trans hmethod)
  obtain ⟨column, foreign, hchange⟩ := registryChange_of_foreign hvalid hresolved
  obtain ⟨hkept, -⟩ | ⟨-, state, happly⟩ := hcases
  · rw [hresolved] at hkept
    cases hkept
  · rw [hchange] at happly
    obtain ⟨key, refreshed, hkey, hcache, hlinked, -⟩ := linked_of_validate hvalid hchange happly
    obtain ⟨htarget, hforeign⟩ := hlinked.holds
    obtain ⟨referenced, -, hreferenced⟩ := hlinked.foreign
    refine ⟨key, hkey, htarget, hforeign, ⟨_, hreferenced, Column.exists_isKeyed_referencedBy _ _⟩,
      ?_⟩
    exact fun last hrun => (hrun.counts hcache htarget.isSome hforeign.isSome).2

/-- A request for an index on the users. -/
def indexRequest : Request :=
  { method := "add index", table := .byName "users", fields := .column (.byName "id") }

/-- The linked shop after its users have got an index. -/
def indexedShop : Database Script := (outcome (submit Script.engine indexRequest) linkedShop).2

/-- The key of the linked shop is noted once on each side, and so it is when the users have been
described again. -/
theorem linkedKey_stays_indexedShop :
    Undisturbed Script.engine orderKey linkedShop indexedShop ∧
      holdCount linkedShop.tables orderKey.target orderKey = 1 ∧
      holdCount indexedShop.tables orderKey.target orderKey = 1 ∧
      holdCount indexedShop.tables orderKey.foreign orderKey =
        holdCount linkedShop.tables orderKey.foreign orderKey := by
  have hmethod : Method.ofText orderKeyRequest.method = .ok (.addConstraint .foreign) := by
    decide +kernel
  obtain ⟨key, hkey, -, -, -, hstays⟩ := linkedKey_stays hmethod outcome_orderKeyRequest
  have hsame : orderKeyRequest.linkedKey? shop.tables = some orderKey := by decide +kernel
  cases hsame.symm.trans hkey
  have hindex : Method.ofText indexRequest.method = .ok (.addConstraint .index) := by decide +kernel
  have hspares : Spares orderKey indexRequest linkedShop.tables indexedShop.tables := by
    refine ⟨?_, by decide +kernel, ?_, by decide +kernel, by decide +kernel⟩
    · rintro ⟨hdrop, -⟩
      cases hindex.symm.trans hdrop
    · rintro name - ⟨-, hrename | ⟨temporary, hdrop⟩⟩
      · cases hindex.symm.trans hrename
      · cases hindex.symm.trans hdrop
  have hsubmit : outcome (submit Script.engine indexRequest) linkedShop =
      (.ok .empty, indexedShop) :=
    Prod.ext (by decide +kernel) rfl
  have hrun : Undisturbed Script.engine orderKey linkedShop indexedShop :=
    .submitted .refl hsubmit hspares
  have hcount : holdCount linkedShop.tables orderKey.target orderKey = 1 := by decide +kernel
  obtain ⟨htarget, hforeign⟩ := hstays indexedShop hrun
  exact ⟨hrun, hcount, htarget.trans hcount, hforeign⟩

end Database

end SchemaQuery
