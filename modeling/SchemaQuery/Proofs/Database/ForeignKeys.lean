import SchemaQuery.Proofs.Database.Registry

/-! Foreign keys in a registry.  A foreign key is noted twice, on the columns at both of its ends.
A change of the registry says which places are left, and carries the keys that are held there over;
whether the two notes still agree then depends on the places alone. -/

namespace SchemaQuery

variable {tables before mid after : List Table} {table : Table} {column : Column}
  {place : ColumnKey} {key : ForeignKey} {name : String}

/-- The column at a place of a registry. -/
def columnAt? (tables : List Table) (place : ColumnKey) : Option Column :=
  (place.table.bind (findTable? tables)).bind fun table => table.columnNamed? place.column

/-- Whether the column at a place holds a foreign key. -/
def Holds (tables : List Table) (place : ColumnKey) (key : ForeignKey) : Prop :=
  ∃ column, columnAt? tables place = some column ∧ .foreign key ∈ column.constraints

instance : Decidable (Holds tables place key) :=
  decidable_of_iff (∃ column ∈ columnAt? tables place, .foreign key ∈ column.constraints) Iff.rfl

/-- Whether every foreign key of the registry is held by the columns at both of its ends. -/
def TwoSided (tables : List Table) : Prop :=
  ∀ table ∈ tables, ∀ column ∈ table.columns, ∀ key, .foreign key ∈ column.constraints →
    Holds tables key.target key ∧ Holds tables key.foreign key

/-! ### Places -/

theorem columnAt?_key (h : IsRegistry tables) (ht : table ∈ tables) (hc : column ∈ table.columns) :
    columnAt? tables column.key = some column := by
  have hconsistent := h.consistent table ht
  rw [columnAt?, hconsistent.key_eq hc, Option.bind_some, findTable?_of_mem h.names ht,
    Option.bind_some]
  exact Table.columnNamed?_of_mem hconsistent.names hc

theorem key_of_columnAt? (h : IsRegistry tables) (hc : columnAt? tables place = some column) :
    column.key = place ∧ ∃ table ∈ tables, column ∈ table.columns := by
  obtain ⟨table, htable, hcolumn⟩ := Option.bind_eq_some_iff.mp hc
  obtain ⟨name, hname, hfound⟩ := Option.bind_eq_some_iff.mp htable
  obtain ⟨hconsistent, rfl⟩ := h.find hfound
  obtain ⟨hmem, hsame⟩ := Table.mem_of_columnNamed? hcolumn
  refine ⟨?_, table, mem_of_findTable? hfound, hmem⟩
  rw [hconsistent.key_eq hmem, hsame, ← hname]

theorem Holds.atEnd (h : IsRegistry tables) (hh : Holds tables place key) :
    key.target = place ∨ key.foreign = place := by
  obtain ⟨column, hc, hkey⟩ := hh
  obtain ⟨rfl, table, ht, hmem⟩ := key_of_columnAt? h hc
  exact ((h.consistent table ht).columns column hmem).atEnd key hkey

theorem Holds.twoTables (h : IsRegistry tables) (hh : Holds tables place key) :
    key.target.table ≠ key.foreign.table := by
  obtain ⟨column, hc, hkey⟩ := hh
  obtain ⟨-, table, ht, hmem⟩ := key_of_columnAt? h hc
  exact ((h.consistent table ht).columns column hmem).twoTables key hkey

/-- The notes agree when each end holds what the other end holds. -/
theorem twoSided_iff (h : IsRegistry tables) :
    TwoSided tables ↔ ∀ key, Holds tables key.target key ↔ Holds tables key.foreign key := by
  constructor
  · intro htwo key
    have hboth : ∀ place, Holds tables place key →
        Holds tables key.target key ∧ Holds tables key.foreign key := by
      rintro place ⟨column, hc, hkey⟩
      obtain ⟨-, table, ht, hmem⟩ := key_of_columnAt? h hc
      exact htwo table ht column hmem key hkey
    exact ⟨fun hh => (hboth _ hh).2, fun hh => (hboth _ hh).1⟩
  · intro hends table ht column hc key hkey
    have hh : Holds tables column.key key := ⟨column, columnAt?_key h ht hc, hkey⟩
    obtain hend | hend := hh.atEnd h
    · rw [← hend] at hh
      exact ⟨hh, (hends key).mp hh⟩
    · rw [← hend] at hh
      exact ⟨(hends key).mpr hh, hh⟩

/-! ### Writing to the registry -/

theorem columnAt?_putTable : columnAt? (putTable tables table) place =
    if place.table = some table.name then table.columnNamed? place.column
    else columnAt? tables place := by
  rw [columnAt?, columnAt?]
  cases hplace : place.table with
  | none => rfl
  | some owner =>
    rw [Option.bind_some, Option.bind_some, findTable?_putTable]
    by_cases howner : table.name = owner
    · rw [if_pos howner, if_pos (congrArg some howner.symm)]
      rfl
    · rw [if_neg howner, if_neg fun h => howner (Option.some.inj h).symm]

theorem columnAt?_eraseP (h : IsRegistry tables) :
    columnAt? (tables.eraseP fun table => table.name == name) place =
      if place.table = some name then none else columnAt? tables place := by
  rw [columnAt?, columnAt?]
  cases hplace : place.table with
  | none => rfl
  | some owner =>
    rw [Option.bind_some, Option.bind_some]
    by_cases howner : name = owner
    · rw [if_pos (congrArg some howner.symm), ← howner, findTable?_eraseP_self h.names]
      rfl
    · rw [if_neg fun h => howner (Option.some.inj h).symm, findTable?_eraseP_of_ne howner]

/-- How a change carries foreign keys over.  A key stays at the places that are left, unless it is
dropped there; keys that are added come to both of their ends. -/
def Carries (before after : List Table) (drops : ColumnKey → ForeignKey → Prop)
    (adds : ForeignKey → Prop) : Prop :=
  ∀ place key, Holds after place key ↔
    ((columnAt? after place).isSome ∧ Holds before place key ∧ ¬drops place key) ∨
      (adds key ∧ (key.target = place ∨ key.foreign = place))

variable {drops drops' : ColumnKey → ForeignKey → Prop} {adds : ForeignKey → Prop}

theorem Holds.isSome (h : Holds tables place key) : (columnAt? tables place).isSome := by
  obtain ⟨column, hc, -⟩ := h
  rw [hc]
  rfl

theorem Holds.table_isSome (h : Holds tables place key) : place.table.isSome := by
  obtain ⟨column, hc, -⟩ := h
  obtain ⟨table, htable, -⟩ := Option.bind_eq_some_iff.mp hc
  obtain ⟨name, hname, -⟩ := Option.bind_eq_some_iff.mp htable
  rw [hname]
  rfl

theorem holds_congr (h : columnAt? after place = columnAt? before place) :
    Holds after place key ↔ Holds before place key := by
  rw [Holds, Holds, h]

theorem carries_refl : Carries tables tables (fun _ _ => False) (fun _ => False) := by
  intro place key
  simpa using fun h : Holds tables place key => h.isSome

theorem Carries.trans (h : Carries before mid drops fun _ => False)
    (h' : Carries mid after drops' adds)
    (hstay : ∀ place key, Holds before place key → (columnAt? after place).isSome →
      (columnAt? mid place).isSome) :
    Carries before after (fun place key => drops place key ∨ drops' place key) adds := by
  intro place key
  have hmid := h place key
  simp only [false_and, or_false] at hmid
  rw [h' place key, hmid]
  refine or_congr_left ⟨?_, ?_⟩
  · rintro ⟨hlast, ⟨-, hheld, hkept⟩, hkept'⟩
    exact ⟨hlast, hheld, not_or.mpr ⟨hkept, hkept'⟩⟩
  · rintro ⟨hlast, hheld, hkept⟩
    obtain ⟨hkept, hkept'⟩ := not_or.mp hkept
    exact ⟨hlast, ⟨hstay place key hheld hlast, hheld, hkept⟩, hkept'⟩

theorem carries_eraseP (h : IsRegistry tables) (name : String) :
    Carries tables (tables.eraseP fun table => table.name == name) (fun _ _ => False)
      (fun _ => False) := by
  intro place key
  simp only [false_and, or_false, not_false_iff, and_true]
  by_cases hplace : place.table = some name
  · have hat : columnAt? (tables.eraseP fun table => table.name == name) place = none := by
      rw [columnAt?_eraseP h, if_pos hplace]
    simp [Holds, hat]
  · have hat : columnAt? (tables.eraseP fun table => table.name == name) place =
      columnAt? tables place := by
      rw [columnAt?_eraseP h, if_neg hplace]
    rw [holds_congr hat, hat]
    exact ⟨fun hh => ⟨hh.isSome, hh⟩, And.right⟩

/-- A table that is put in, with what its columns hold given by what was held at their places. -/
theorem carries_putTable
    (hkeys : ∀ column ∈ table.columns, ∀ key, .foreign key ∈ column.constraints ↔
      Holds tables ⟨some table.name, column.name⟩ key ∧ ¬drops ⟨some table.name, column.name⟩ key)
    (hdrops : ∀ place key, drops place key → place.table = some table.name) :
    Carries tables (putTable tables table) drops fun _ => False := by
  intro place key
  simp only [false_and, or_false]
  by_cases hplace : place.table = some table.name
  · have hat : columnAt? (putTable tables table) place = table.columnNamed? place.column := by
      rw [columnAt?_putTable, if_pos hplace]
    rw [Holds, hat]
    cases hc : table.columnNamed? place.column with
    | none => simp
    | some column =>
      obtain ⟨hmem, hname⟩ := Table.mem_of_columnNamed? hc
      have hsame : (⟨some table.name, column.name⟩ : ColumnKey) = place := by rw [hname, ← hplace]
      have hcolumn := hkeys column hmem key
      rw [hsame] at hcolumn
      simpa using hcolumn
  · have hat : columnAt? (putTable tables table) place = columnAt? tables place := by
      rw [columnAt?_putTable, if_neg hplace]
    rw [holds_congr hat, hat]
    exact ⟨fun h => ⟨h.isSome, h, fun hd => hplace (hdrops place key hd)⟩, fun h => h.2.1⟩

/-! ### Described tables -/

theorem not_holds_of_findTable?_none (h : findTable? tables name = none)
    (hplace : place.table = some name) : ¬Holds tables place key := by
  rintro ⟨column, hc, -⟩
  rw [columnAt?, hplace, Option.bind_some, h] at hc
  cases hc

/-- A table under a name that was free. -/
theorem carries_described (h : table.IsDescribed name) (hfree : findTable? tables name = none)
    (temporary : Bool) :
    Carries tables (putTable tables { table with temporary }) (fun _ _ => False)
      (fun _ => False) := by
  apply carries_putTable
  · intro column hc key
    have hname : ({ table with temporary } : Table).name = name := h.name
    have hno : ¬Holds tables ⟨some name, column.name⟩ key := not_holds_of_findTable?_none hfree rfl
    rw [hname]
    exact ⟨fun hkey => absurd hkey (h.noForeign column hc key), fun hh => absurd hh.1 hno⟩
  · exact fun _ _ hd => hd.elim

theorem foreign_mem_foreignKeys :
    .foreign key ∈ column.foreignKeys ↔ .foreign key ∈ column.constraints := by
  simp [Column.foreignKeys, Constraint.kind?]

/-- Whether a dropped constraint is this foreign key. -/
def Drops (dropped : Option Constraint) (key : ForeignKey) : Prop :=
  ∃ c ∈ dropped, (Constraint.foreign key).same c = true

theorem foreign_mem_carried {old : Column} {dropped : Option Constraint}
    (hnone : ∀ key, .foreign key ∉ column.constraints) :
    .foreign key ∈ ((old.foreignKeys.filter fun c => !dropped.any c.same).foldl Column.attach
        column).constraints ↔ .foreign key ∈ old.constraints ∧ ¬Drops dropped key := by
  have hkinds : ∀ c ∈ old.foreignKeys.filter fun c => !dropped.any c.same, c.kind? = none := by
    intro c hc
    exact Option.isNone_iff_eq_none.mp (List.mem_filter.mp (List.mem_of_mem_filter hc)).2
  rw [Column.foldl_attach_foreignKeys hkinds, List.mem_append, or_iff_right (hnone key),
    List.mem_filter, foreign_mem_foreignKeys]
  cases dropped <;> simp [Drops]

open Database in
/-- A table in place of its former snapshot. -/
theorem carries_renewed (hd : table.IsDescribed name) (dropped : Option Constraint) :
    Carries tables (putTable tables (renewed (findTable? tables name) dropped table))
      (fun place key => place.table = some name ∧ Drops dropped key) (fun _ => False) := by
  have hname : (renewed (findTable? tables name) dropped table).name = name := by
    rw [name_renewed, hd.name]
  apply carries_putTable
  · rw [hname]
    cases hformer : findTable? tables name with
    | none =>
      intro column hc key
      have hno : ¬Holds tables ⟨some name, column.name⟩ key :=
        not_holds_of_findTable?_none hformer rfl
      exact ⟨fun hkey => absurd hkey (hd.noForeign column hc key), fun hh => absurd hh.1 hno⟩
    | some former =>
      refine List.forall_mem_map.mpr fun column hc key => ?_
      have hat : columnAt? tables ⟨some name, column.name⟩ = former.columnNamed? column.name := by
        rw [columnAt?, Option.bind_some, hformer, Option.bind_some]
      cases hold : former.columnNamed? column.name with
      | none =>
        rw [hold] at hat
        simpa [Holds, hat] using hd.noForeign column hc key
      | some old =>
        rw [hold] at hat
        dsimp only
        rw [Column.name_foldl_attach, foreign_mem_carried (hd.noForeign column hc), Holds, hat]
        simp
  · intro place key hdrop
    rw [hname]
    exact hdrop.1

/-! ### Linked columns -/

theorem columnNamed?_updateColumn {change : Column → Column} {asked : String}
    (hname : ∀ column, column.name = name → (change column).name = name) :
    (table.updateColumn name change).columnNamed? asked =
      (table.columnNamed? asked).map fun column =>
        if column.name = name then change column else column := by
  have hnames : ∀ column : Column, (if column.name = name then change column else column).name =
      column.name := by
    intro column
    split
    · next h => rw [hname column h, h]
    · rfl
  rw [Table.columnNamed?, Table.columnNamed?, Table.updateColumn, List.find?_map]
  simp only [Function.comp_def, hnames]

theorem columnAt?_updateColumn {new : Column} (hfound : findTable? tables table.name = some table)
    (hname : new.name = name) :
    columnAt? (putTable tables (table.updateColumn name fun _ => new)) place =
      if place.table = some table.name then
        (columnAt? tables place).map fun column => if column.name = name then new else column
      else columnAt? tables place := by
  rw [columnAt?_putTable]
  change (if place.table = some table.name then _ else _) = _
  by_cases hplace : place.table = some table.name
  · have hat : columnAt? tables place = table.columnNamed? place.column := by
      rw [columnAt?, hplace, Option.bind_some, hfound, Option.bind_some]
    rw [if_pos hplace, if_pos hplace, hat, columnNamed?_updateColumn fun _ _ => hname]
  · rw [if_neg hplace, if_neg hplace]

/-- A column on which one more key is noted. -/
theorem holds_updateColumn {new : Column} {added : ForeignKey} (h : IsRegistry tables)
    (hfound : findTable? tables table.name = some table)
    (hc : table.columnNamed? name = some column)
    (hkey : new.key = column.key)
    (hnew : ∀ key, .foreign key ∈ new.constraints ↔
      .foreign key ∈ column.constraints ∨ key = added) :
    Holds (putTable tables (table.updateColumn name fun _ => new)) place key ↔
      Holds tables place key ∨ (key = added ∧ column.key = place) := by
  obtain ⟨hmem, rfl⟩ := Table.mem_of_columnNamed? hc
  have htable : table ∈ tables := mem_of_findTable? hfound
  have hname : new.name = column.name := congrArg ColumnKey.column hkey
  have hown : columnAt? tables column.key = some column := columnAt?_key h htable hmem
  have hkeyed : column.key = ⟨some table.name, column.name⟩ :=
    (h.consistent table htable).key_eq hmem
  by_cases hsame : column.key = place
  · have hupdated : columnAt? (putTable tables (table.updateColumn column.name fun _ => new))
        column.key = some new := by
      rw [columnAt?_updateColumn hfound hname, if_pos (by rw [hkeyed]), hown,
        Option.map_some, if_pos rfl]
    subst hsame
    rw [Holds, Holds, hupdated, hown]
    simp [hnew]
  · have hkept : columnAt? (putTable tables (table.updateColumn column.name fun _ => new)) place =
        columnAt? tables place := by
      rw [columnAt?_updateColumn hfound hname]
      split
      · next hplace =>
        cases hc' : columnAt? tables place with
        | none => rfl
        | some c =>
          have hne : c.name ≠ column.name := by
            intro heq
            obtain ⟨rfl, -⟩ := key_of_columnAt? h hc'
            exact hsame (by rw [hkeyed, ← hplace, ← heq]; rfl)
          rw [Option.map_some, if_neg hne]
      · rfl
    rw [holds_congr hkept, or_iff_left fun h => hsame h.2]

theorem isSome_columnAt?_updateColumn {new : Column}
    (hfound : findTable? tables table.name = some table) (hname : new.name = name) :
    (columnAt? (putTable tables (table.updateColumn name fun _ => new)) place).isSome =
      (columnAt? tables place).isSome := by
  rw [columnAt?_updateColumn hfound hname]
  split
  · rw [Option.isSome_map]
  · rfl

/-- A link adds one key, on both of its ends. -/
theorem carries_link {target foreign : Table} {referencing referenced : Column}
    {column foreignColumn : String} {asked : Option String} {linked : ForeignKey × Column × Column}
    (h : IsRegistry tables) (ht : findTable? tables target.name = some target)
    (hf : findTable? tables foreign.name = some foreign)
    (hc : target.columnNamed? column = some referencing)
    (hr : foreign.columnNamed? foreignColumn = some referenced)
    (hl : referencing.link referenced asked = .ok linked) :
    Carries tables (putTable (putTable tables (target.updateColumn column fun _ => linked.2.1))
        (foreign.updateColumn foreignColumn fun _ => linked.2.2))
      (fun _ _ => False) (fun key => key = linked.1) ∧
    ∀ place, (columnAt? (putTable (putTable tables (target.updateColumn column fun _ => linked.2.1))
        (foreign.updateColumn foreignColumn fun _ => linked.2.2)) place).isSome =
      (columnAt? tables place).isSome := by
  have htarget := h.consistent target (mem_of_findTable? ht)
  have hforeign := h.consistent foreign (mem_of_findTable? hf)
  obtain ⟨hcmem, hcname⟩ := Table.mem_of_columnNamed? hc
  obtain ⟨hrmem, hrname⟩ := Table.mem_of_columnNamed? hr
  obtain ⟨⟨hkey, hconsistent⟩, hkey', -⟩ :=
    Column.isConsistent_link (htarget.columns _ hcmem) (hforeign.columns _ hrmem) hl
  obtain ⟨hends, hends', hnew, hnew'⟩ := Column.foreign_mem_link hl
  have hne : target.name ≠ foreign.name := by
    obtain ⟨key, hktarget, hkforeign, htables, -⟩ := Column.exists_key_of_link hl
    rw [hktarget, hkforeign, htarget.key_eq hcmem, hforeign.key_eq hrmem] at htables
    exact fun hname => htables (congrArg some hname)
  have hfirst : ∀ place key,
      Holds (putTable tables (target.updateColumn column fun _ => linked.2.1)) place key ↔
        Holds tables place key ∨ (key = linked.1 ∧ referencing.key = place) :=
    fun place key => holds_updateColumn h ht hc hkey hnew
  have hmid : IsRegistry (putTable tables (target.updateColumn column fun _ => linked.2.1)) :=
    h.put (htarget.updateColumn hc hkey hconsistent)
  have hfound : findTable? (putTable tables (target.updateColumn column fun _ => linked.2.1))
      foreign.name = some foreign := by
    rw [findTable?_putTable]
    exact (if_neg hne).trans hf
  refine ⟨fun place key => ?_, fun place => ?_⟩
  swap
  · have hnamed : linked.2.1.name = column := (congrArg ColumnKey.column hkey).trans hcname
    have hnamed' : linked.2.2.name = foreignColumn := (congrArg ColumnKey.column hkey').trans hrname
    rw [isSome_columnAt?_updateColumn hfound hnamed', isSome_columnAt?_updateColumn ht hnamed]
  have hiff : Holds (putTable (putTable tables (target.updateColumn column fun _ => linked.2.1))
      (foreign.updateColumn foreignColumn fun _ => linked.2.2)) place key ↔
      Holds tables place key ∨ (key = linked.1 ∧ (key.target = place ∨ key.foreign = place)) := by
    rw [holds_updateColumn hmid hfound hr hkey' hnew', hfirst, or_assoc, ← and_or_left]
    refine or_congr_right (and_congr_right ?_)
    rintro rfl
    rw [hends, hends']
  constructor
  · intro hh
    exact (hiff.mp hh).imp_left fun hold => ⟨hh.isSome, hold, not_false⟩
  · exact fun hh => hiff.mpr (hh.imp_left fun hold => hold.2.1)

/-! ### Two-sided keys -/

/-- Whether the notes of a key agree after a change depends on the places alone: they do when each
end is left, or loses the key, exactly if the other does. -/
theorem Carries.twoSided_iff (h : IsRegistry before) (h' : IsRegistry after)
    (hc : Carries before after drops adds) (hadds : ∀ key place, adds key → ¬drops place key)
    (htwo : TwoSided before) :
    TwoSided after ↔ ∀ key, Holds before key.target key →
      (((columnAt? after key.target).isSome ∧ ¬drops key.target key) ↔
        ((columnAt? after key.foreign).isSome ∧ ¬drops key.foreign key)) := by
  rw [SchemaQuery.twoSided_iff h']
  have hends := (SchemaQuery.twoSided_iff h).mp htwo
  refine forall_congr' fun key => ?_
  by_cases hadd : adds key
  · have htarget : Holds after key.target key := (hc _ _).mpr (.inr ⟨hadd, .inl rfl⟩)
    have hforeign : Holds after key.foreign key := (hc _ _).mpr (.inr ⟨hadd, .inr rfl⟩)
    exact iff_of_true (iff_of_true htarget hforeign) fun _ => iff_of_true
      ⟨htarget.isSome, hadds key _ hadd⟩ ⟨hforeign.isSome, hadds key _ hadd⟩
  · have hkey := hends key
    rw [hc, hc]
    simp only [hadd, false_and, or_false, ← hkey]
    by_cases hheld : Holds before key.target key
    · simp [hheld]
    · simp [hheld]

end SchemaQuery
