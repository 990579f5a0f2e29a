import Mathlib.Data.List.Nodup
import SchemaQuery.Proofs.Column.Definition.RoundTrip
import SchemaQuery.Proofs.Column.Lookup
import SchemaQuery.Proofs.Text.Cut
import SchemaQuery.Database.SchemaChange

/-! Consistent columns and tables: the keys of a column are its own, its foreign keys lead to it or
away from it, and the columns of a table belong to it.  A table that is read from definitions is
consistent, and so is one to whose columns foreign keys have been added at one of their ends. -/

namespace SchemaQuery

variable {column other : Column} {table : Table} {key : ForeignKey} {c : Constraint}

namespace Column

/-- Consistent columns.  A column with a primary key forbids empty cells. -/
structure IsConsistent (column : Column) : Prop where
  oneKey : (column.constraints.filter Constraint.isKeyed).length ≤ 1
  ownKey : ∀ c ∈ column.constraints, c.isKeyed = true → c.target = column.key
  atEnd : ∀ key, .foreign key ∈ column.constraints →
    key.target = column.key ∨ key.foreign = column.key
  twoTables : ∀ key, .foreign key ∈ column.constraints → key.target.table ≠ key.foreign.table
  notNull : ∀ c ∈ column.constraints, c.kind? = some .primary → column.nullable = false

/-! ### Columns of definitions -/

theorem kind?_keyed (kind : KeyKind) (target : ColumnKey) (name : Option String) :
    (Constraint.keyed kind target name).kind? = some kind := by
  cases kind <;> rfl

theorem target_keyed (kind : KeyKind) (target : ColumnKey) (name : Option String) :
    (Constraint.keyed kind target name).target = target := by
  cases kind <;> rfl

theorem retarget_keyed (kind : KeyKind) (old new : ColumnKey) :
    (Constraint.keyed kind old none).retarget old new = Constraint.keyed kind new none := by
  cases kind <;> simp [Constraint.keyed, Constraint.retarget]

/-- A column that is read from a definition and given to a table has no constraint but its key. -/
theorem constraints_ownedBy {definition : String} (h : ofDefinition definition = .ok column)
    (name : String) : (column.ownedBy name).constraints =
      (column.keyKind?.map fun kind =>
        Constraint.keyed kind (column.ownedBy name).key none).toList := by
  obtain ⟨-, hdescribed⟩ := described_of_ofDefinition h
  have hkey : column.key = ⟨none, column.name⟩ := by rw [key, ← hdescribed]; rfl
  have hown : column.constraints = Definition.keyConstraints column.name column.keyKind? :=
    congrArg constraints hdescribed.symm
  change column.constraints.map (Constraint.retarget column.key (column.ownedBy name).key) = _
  rw [hown, hkey, Definition.keyConstraints]
  cases column.keyKind? with
  | none => rfl
  | some kind => exact congrArg (· :: []) (retarget_keyed kind _ _)

theorem isConsistent_ownedBy {definition : String} (h : ofDefinition definition = .ok column)
    (name : String) : (column.ownedBy name).IsConsistent ∧
      ∀ c ∈ (column.ownedBy name).constraints, c.isKeyed = true := by
  obtain ⟨hdefinable, -⟩ := described_of_ofDefinition h
  have hconstraints := constraints_ownedBy h name
  have hkind : ∀ c ∈ (column.ownedBy name).constraints,
      ∃ kind ∈ column.keyKind?, c = Constraint.keyed kind (column.ownedBy name).key none := by
    intro c hc
    rw [hconstraints, Option.mem_toList] at hc
    obtain ⟨kind, hkind, rfl⟩ := Option.map_eq_some_iff.mp hc
    exact ⟨kind, hkind, rfl⟩
  have hkeyed : ∀ c ∈ (column.ownedBy name).constraints, c.isKeyed = true := by
    intro c hc
    obtain ⟨kind, -, rfl⟩ := hkind c hc
    rw [Constraint.isKeyed, kind?_keyed]
    rfl
  refine ⟨⟨?_, ?_, ?_, ?_, ?_⟩, hkeyed⟩
  · refine (List.length_filter_le _ _).trans ?_
    rw [hconstraints]
    cases column.keyKind? <;> simp
  · intro c hc _
    obtain ⟨kind, -, rfl⟩ := hkind c hc
    exact target_keyed _ _ _
  · exact fun key hc => absurd (hkeyed _ hc) Bool.false_ne_true
  · exact fun key hc => absurd (hkeyed _ hc) Bool.false_ne_true
  · intro c hc hprimary
    obtain ⟨kind, hk, rfl⟩ := hkind c hc
    rw [kind?_keyed] at hprimary
    cases hprimary
    exact hdefinable.primary hk

/-! ### Foreign keys of columns -/

theorem attach_foreign (column : Column) (key : ForeignKey) : column.attach (.foreign key) =
    { column with constraints := column.constraints ++ [.foreign key] } := rfl

/-- A foreign key may be noted on a column at one of its ends. -/
theorem IsConsistent.addForeign (h : column.IsConsistent)
    (hend : key.target = column.key ∨ key.foreign = column.key)
    (htables : key.target.table ≠ key.foreign.table) :
    IsConsistent { column with constraints := column.constraints ++ [.foreign key] } := by
  refine ⟨?_, ?_, ?_, ?_, ?_⟩
  · have hnone : [Constraint.foreign key].filter Constraint.isKeyed = [] := rfl
    rw [List.filter_append, hnone, List.append_nil]
    exact h.oneKey
  · exact List.forall_mem_append.mpr ⟨h.ownKey, List.forall_mem_singleton.mpr nofun⟩
  · intro other hother
    obtain hother | hother := List.mem_append.mp hother
    · exact h.atEnd other hother
    · cases List.mem_singleton.mp hother
      exact hend
  · intro other hother
    obtain hother | hother := List.mem_append.mp hother
    · exact h.twoTables other hother
    · cases List.mem_singleton.mp hother
      exact htables
  · exact List.forall_mem_append.mpr ⟨h.notNull, List.forall_mem_singleton.mpr nofun⟩

theorem isKeyed_of_find?_index (h : column.find? (.kind .index) = none) :
    ∀ c ∈ column.constraints, c.isKeyed = false := by
  intro c hc
  rw [← c.answers_index]
  exact find?_eq_none_iff.mp h c hc

theorem attach_index (h : ∀ c ∈ column.constraints, c.isKeyed = false) :
    column.attach (Constraint.keyed .index column.key none) =
      { column with
        constraints := column.constraints ++ [Constraint.keyed .index column.key none] } := by
  have hnone : keyedIndex? column.constraints = none := List.findIdx?_eq_none_iff.mpr h
  simp only [attach, attachTo, kind?_keyed, hnone]

/-- A column without a key may get an index. -/
theorem IsConsistent.addIndex (h : column.IsConsistent)
    (hnone : ∀ c ∈ column.constraints, c.isKeyed = false) :
    IsConsistent
      { column with
        constraints := column.constraints ++ [Constraint.keyed .index column.key none] } := by
  have hkept : column.constraints.filter Constraint.isKeyed = [] :=
    List.filter_eq_nil_iff.mpr fun c hc => by simp [hnone c hc]
  have hold : ∀ key,
      .foreign key ∈ column.constraints ++ [Constraint.keyed .index column.key none] →
      .foreign key ∈ column.constraints := by
    intro key hkey
    obtain hkey | hkey := List.mem_append.mp hkey
    · exact hkey
    · exact nomatch List.mem_singleton.mp hkey
  refine ⟨?_, ?_, fun key hkey => h.atEnd key (hold key hkey),
    fun key hkey => h.twoTables key (hold key hkey), ?_⟩
  · rw [List.filter_append, hkept]
    exact List.length_filter_le _ _
  · exact List.forall_mem_append.mpr ⟨h.ownKey, List.forall_mem_singleton.mpr fun _ => rfl⟩
  · exact List.forall_mem_append.mpr ⟨h.notNull, List.forall_mem_singleton.mpr nofun⟩

/-- What a reference makes of a column: it may get an index, and it gets the foreign key. -/
theorem referencedBy_eq (column : Column) (key : ForeignKey) :
    ∃ indexed : Column, column.referencedBy key =
        { indexed with constraints := indexed.constraints ++ [.foreign key] } ∧
      indexed.key = column.key ∧ (column.IsConsistent → indexed.IsConsistent) ∧
      ∀ other, .foreign other ∈ indexed.constraints ↔ .foreign other ∈ column.constraints := by
  rw [referencedBy]
  cases hfind : column.find? (.kind .index) with
  | some c => exact ⟨column, rfl, rfl, id, fun _ => Iff.rfl⟩
  | none =>
    have hnone := isKeyed_of_find?_index hfind
    rw [attach_index hnone]
    refine ⟨_, rfl, rfl, fun h => h.addIndex hnone, fun other => ?_⟩
    change .foreign other ∈ column.constraints ++ [_] ↔ _
    rw [List.mem_append, List.mem_singleton]
    exact or_iff_left nofun

/-- A link is a foreign key from one column to the other, noted on both. -/
theorem exists_key_of_link {name : Option String} {linked : ForeignKey × Column × Column}
    (h : column.link other name = .ok linked) :
    ∃ key, key.target = column.key ∧ key.foreign = other.key ∧
      key.target.table ≠ key.foreign.table ∧
      linked = (key, column.attach (.foreign key), other.referencedBy key) := by
  obtain ⟨key, hmake, rfl⟩ := map_eq_ok_iff.mp h
  rw [ForeignKey.make] at hmake
  split at hmake
  · cases hmake
  · next htables =>
    cases hmake
    exact ⟨_, rfl, rfl, htables, rfl⟩

theorem isConsistent_link {name : Option String} {linked : ForeignKey × Column × Column}
    (hcolumn : column.IsConsistent) (hother : other.IsConsistent)
    (h : column.link other name = .ok linked) :
    (linked.2.1.key = column.key ∧ linked.2.1.IsConsistent) ∧
      linked.2.2.key = other.key ∧ linked.2.2.IsConsistent := by
  obtain ⟨key, htarget, hforeign, htables, rfl⟩ := exists_key_of_link h
  obtain ⟨indexed, hreferenced, hkey, hindexed, -⟩ := referencedBy_eq other key
  refine ⟨⟨rfl, hcolumn.addForeign (.inl htarget) htables⟩, ?_⟩
  rw [hreferenced]
  exact ⟨hkey, (hindexed hother).addForeign (.inr (hforeign.trans hkey.symm)) htables⟩

/-- The key of a link joins the two columns and is the only one that either of them gets. -/
theorem foreign_mem_link {name : Option String} {linked : ForeignKey × Column × Column}
    (h : column.link other name = .ok linked) :
    linked.1.target = column.key ∧ linked.1.foreign = other.key ∧
      (∀ k, .foreign k ∈ linked.2.1.constraints ↔ .foreign k ∈ column.constraints ∨ k = linked.1) ∧
      ∀ k, .foreign k ∈ linked.2.2.constraints ↔ .foreign k ∈ other.constraints ∨ k = linked.1 := by
  obtain ⟨key, htarget, hforeign, -, rfl⟩ := exists_key_of_link h
  obtain ⟨indexed, hreferenced, -, -, hsame⟩ := referencedBy_eq other key
  refine ⟨htarget, hforeign, fun k => ?_, fun k => ?_⟩
  · simp [attach_foreign]
  · simp [hreferenced, hsame]

/-- Foreign keys of a consistent column may be noted on any other of the same name and owner. -/
theorem foldl_attach_foreignKeys {keys : List Constraint} (hkeys : ∀ c ∈ keys, c.kind? = none) :
    keys.foldl attach column = { column with constraints := column.constraints ++ keys } := by
  induction keys generalizing column with
  | nil => rw [List.append_nil]; rfl
  | cons c rest ih =>
    obtain ⟨hc, hrest⟩ := List.forall_mem_cons.mp hkeys
    have hattach : column.attach c = { column with constraints := column.constraints ++ [c] } := by
      simp only [attach, attachTo, hc]
    rw [List.foldl_cons, ih hrest, hattach]
    simp only [List.append_assoc, List.cons_append, List.nil_append]

theorem name_foldl_attach (column : Column) (keys : List Constraint) :
    (keys.foldl attach column).name = column.name := by
  induction keys generalizing column with
  | nil => rfl
  | cons c rest ih => exact ih (column.attach c)

theorem IsConsistent.carry {keys : List Constraint} (h : column.IsConsistent)
    (ho : other.IsConsistent) (hkey : other.key = column.key)
    (hkeys : ∀ c ∈ keys, c.kind? = none ∧ c ∈ other.constraints) :
    IsConsistent { column with constraints := column.constraints ++ keys } := by
  induction keys generalizing column with
  | nil => simpa using h
  | cons c rest ih =>
    obtain ⟨⟨hc, hmem⟩, hrest⟩ := List.forall_mem_cons.mp hkeys
    cases c with
    | foreign key =>
      have hadded :
          IsConsistent { column with constraints := column.constraints ++ [.foreign key] } :=
        h.addForeign (hkey ▸ ho.atEnd key hmem) (ho.twoTables key hmem)
      simpa using ih hadded hkey hrest
    | _ => cases hc

end Column

/-! ### Tables -/

theorem firstRepeated?_eq_none_iff {seen names : List String} :
    firstRepeated? seen names = none ↔ names.Nodup ∧ ∀ name ∈ names, name ∉ seen := by
  induction names generalizing seen with
  | nil => simp [firstRepeated?]
  | cons name rest ih =>
    rw [firstRepeated?]
    by_cases hname : name ∈ seen
    · simp [hname]
    · simp only [List.contains_iff_mem, hname, if_false, ih, List.nodup_cons, List.mem_cons, not_or]
      grind

namespace Table

/-- Consistent tables of the schema. -/
structure IsConsistent (table : Table) : Prop where
  notJoined : table.joined = false
  names : table.columnNames.Nodup
  owned : ∀ column ∈ table.columns, column.owner = some table.name
  columns : ∀ column ∈ table.columns, column.IsConsistent

theorem IsConsistent.key_eq (h : table.IsConsistent) (hc : column ∈ table.columns) :
    column.key = ⟨some table.name, column.name⟩ := by
  rw [Column.key, h.owned column hc]

theorem IsConsistent.setTemporary (h : table.IsConsistent) (temporary : Bool) :
    IsConsistent { table with temporary } :=
  ⟨h.notJoined, h.names, h.owned, h.columns⟩

/-- A change of the columns that leaves them where they are. -/
theorem IsConsistent.mapColumns {change : Column → Column} (h : table.IsConsistent)
    (hchange : ∀ column ∈ table.columns,
      (change column).key = column.key ∧ (change column).IsConsistent) :
    IsConsistent { table with columns := table.columns.map change } := by
  have hnames : (table.columns.map change).map Column.name = table.columns.map Column.name := by
    rw [List.map_map]
    exact List.map_congr_left fun column hc => congrArg ColumnKey.column (hchange column hc).1
  refine ⟨h.notJoined, ?_, ?_, List.forall_mem_map.mpr fun column hc => (hchange column hc).2⟩
  · rw [columnNames, hnames]
    exact h.names
  · refine List.forall_mem_map.mpr fun column hc => ?_
    exact (congrArg ColumnKey.table (hchange column hc).1).trans (h.owned column hc)

theorem mem_of_columnNamed? {name : String} (h : table.columnNamed? name = some column) :
    column ∈ table.columns ∧ column.name = name :=
  ⟨List.mem_of_find?_eq_some h, by simpa using List.find?_some h⟩

theorem columnNamed?_of_mem (h : table.columnNames.Nodup) (hc : column ∈ table.columns) :
    table.columnNamed? column.name = some column := by
  cases hfound : table.columnNamed? column.name with
  | none =>
    have hnot := List.find?_eq_none.mp hfound column hc
    simp at hnot
  | some other =>
    obtain ⟨hother, hname⟩ := mem_of_columnNamed? hfound
    exact congrArg some (List.inj_on_of_nodup_map h hother hc hname)

/-- A column is found by its name, or by that with the name of the table in front. -/
theorem mem_of_column? {name : String} (h : table.column? name = some column) :
    column ∈ table.columns ∧ (name = column.name ∨ name = table.name ++ "." ++ column.name) := by
  unfold column? at h
  split at h
  · next found hfound =>
    cases h
    obtain ⟨hmem, hname⟩ := mem_of_columnNamed? hfound
    exact ⟨hmem, .inl hname.symm⟩
  · obtain ⟨rest, hrest, hfound⟩ := Option.bind_eq_some_iff.mp h
    obtain ⟨hmem, rfl⟩ := mem_of_columnNamed? hfound
    exact ⟨hmem, .inr (Text.after?_eq_some_iff.mp hrest)⟩

theorem resolve_eq_ok_iff {reference : ColumnRef} :
    table.resolve reference = .ok column ↔ table.resolve? reference = some column := by
  rw [resolve]
  cases table.resolve? reference <;> simp

theorem mem_of_resolve {reference : ColumnRef} (h : table.resolve reference = .ok column) :
    column ∈ table.columns := by
  have hfound := resolve_eq_ok_iff.mp h
  cases reference with
  | byName name => exact (mem_of_column? hfound).1
  | byValue wanted =>
    simp only [resolve?] at hfound
    split at hfound
    · next hown =>
      cases hfound
      exact List.mem_of_find?_eq_some hown
    · split at hfound
      · exact (mem_of_column? hfound).1
      · cases hfound

theorem IsConsistent.updateColumn {name : String} {new : Column} (h : table.IsConsistent)
    (hold : table.columnNamed? name = some column) (hkey : new.key = column.key)
    (hnew : new.IsConsistent) : IsConsistent (table.updateColumn name fun _ => new) := by
  obtain ⟨hmem, rfl⟩ := mem_of_columnNamed? hold
  refine h.mapColumns fun other hother => ?_
  split
  · next hname => exact ⟨by rw [hkey, h.key_eq hmem, h.key_eq hother, hname], hnew⟩
  · exact ⟨rfl, h.columns other hother⟩

theorem IsConsistent.carryForeignKeys {former : Table} {dropped : Option Constraint}
    (h : table.IsConsistent) (hf : former.IsConsistent) (hname : former.name = table.name) :
    (former.carryForeignKeys dropped table).IsConsistent := by
  refine h.mapColumns fun column hc => ?_
  cases hold : former.columnNamed? column.name with
  | none => exact ⟨rfl, h.columns column hc⟩
  | some old =>
    obtain ⟨hmem, hsame⟩ := mem_of_columnNamed? hold
    have hkey : old.key = column.key := by rw [hf.key_eq hmem, h.key_eq hc, hname, hsame]
    have hkeys : ∀ c ∈ old.foreignKeys.filter fun c => !dropped.any c.same,
        c.kind? = none ∧ c ∈ old.constraints := by
      intro c hc
      obtain ⟨hc, hnone⟩ := List.mem_filter.mp (List.mem_of_mem_filter hc)
      exact ⟨Option.isNone_iff_eq_none.mp hnone, hc⟩
    dsimp only
    rw [Column.foldl_attach_foreignKeys fun c hc => (hkeys c hc).1]
    exact ⟨rfl, (h.columns column hc).carry (hf.columns old hmem) hkey hkeys⟩

/-- Columns make a table when their names differ; it gets them as its own. -/
theorem make_eq_ok_iff {name : String} {columns : List Column} : make name columns = .ok table ↔
    (columns.map Column.name).Nodup ∧
      table = { name, columns := columns.map (Column.ownedBy · name) } := by
  have hnames : firstRepeated? [] (columns.map Column.name) = none ↔ _ := firstRepeated?_eq_none_iff
  rw [make]
  cases hrepeated : firstRepeated? [] (columns.map Column.name) with
  | none =>
    have hnodup := (hnames.mp hrepeated).1
    simp [hnodup, eq_comm]
  | some repeated =>
    have hnodup : ¬(columns.map Column.name).Nodup := by
      intro hnodup
      rw [hnames.mpr ⟨hnodup, fun _ _ => List.not_mem_nil⟩] at hrepeated
      cases hrepeated
    simp [hnodup]

/-- What is read from definitions: columns of different names, which the table gets as its own. -/
theorem ofDefinitions_eq_ok_iff {name : String} {definitions : List String} :
    ofDefinitions name definitions = .ok table ↔
      ∃ columns, definitions.mapM Column.ofDefinition = .ok columns ∧
        (columns.map Column.name).Nodup ∧
        table = { name, columns := columns.map (Column.ownedBy · name) } := by
  rw [ofDefinitions, bind_eq_ok_iff]
  exact exists_congr fun columns => and_congr_right fun _ => make_eq_ok_iff

/-- A table that is read from definitions is consistent and has no foreign keys. -/
theorem isConsistent_ofDefinitions {name : String} {definitions : List String}
    (h : ofDefinitions name definitions = .ok table) :
    table.IsConsistent ∧ ∀ column ∈ table.columns, ∀ key, .foreign key ∉ column.constraints := by
  obtain ⟨columns, hcolumns, hnodup, rfl⟩ := ofDefinitions_eq_ok_iff.mp h
  have hown : ∀ column ∈ columns, (column.ownedBy name).IsConsistent ∧
      ∀ c ∈ (column.ownedBy name).constraints, c.isKeyed = true := by
    intro column hc
    obtain ⟨definition, -, hread⟩ := exists_of_mem_mapM hcolumns hc
    exact Column.isConsistent_ownedBy hread name
  refine ⟨⟨rfl, ?_, ?_, ?_⟩, ?_⟩
  · have hnames : (columns.map (Column.ownedBy · name)).map Column.name =
      columns.map Column.name := by
      rw [List.map_map]
      rfl
    rw [columnNames, hnames]
    exact hnodup
  · exact List.forall_mem_map.mpr fun column _ => rfl
  · exact List.forall_mem_map.mpr fun column hc => (hown column hc).1
  · refine List.forall_mem_map.mpr fun column hc key hkey => ?_
    exact absurd ((hown column hc).2 _ hkey) Bool.false_ne_true

end Table

end SchemaQuery
