import SchemaQuery.Database.Operations
import SchemaQuery.Proofs.Constraint
import SchemaQuery.Proofs.Database.ForeignKeys

/-! Checks of values against the constraints of a registry.  A check fills caches and changes
nothing else.  Where the keys are two-sided, it finds every table and column that it reads, so that
it fails only because a constraint does not allow the value, the connection is not open or the
engine fails. -/

namespace SchemaQuery

variable {tables base : List Table} {table : Table} {column : Column} {name columnName : String}
  {place : Nat} {c learned : Constraint} {key : ForeignKey}

/-! ### Registries without caches -/

def Table.withoutCaches (table : Table) : Table :=
  { table with columns := table.columns.map Column.withoutCaches }

theorem Table.columnNames_withoutCaches (table : Table) :
    table.withoutCaches.columnNames = table.columnNames := by
  rw [columnNames, withoutCaches, List.map_map]
  rfl

theorem Table.name_of_withoutCaches {a b : Table} (h : a.withoutCaches = b.withoutCaches) :
    a.name = b.name := by
  have hname := congrArg Table.name h
  exact hname

/-- Whether two registries are the same, whatever the caches of their constraints hold. -/
def Alike (tables base : List Table) : Prop :=
  tables.map Table.withoutCaches = base.map Table.withoutCaches

theorem findTable?_withoutCaches :
    findTable? (tables.map Table.withoutCaches) name =
      (findTable? tables name).map Table.withoutCaches := by
  rw [findTable?, List.find?_map]
  rfl

theorem columnNamed?_withoutCaches :
    table.withoutCaches.columnNamed? columnName =
      (table.columnNamed? columnName).map Column.withoutCaches := by
  rw [Table.columnNamed?, Table.withoutCaches, List.find?_map]
  rfl

theorem Alike.findTable? (h : Alike tables base) :
    (findTable? tables name).map Table.withoutCaches = (SchemaQuery.findTable? base name).map
      Table.withoutCaches := by
  rw [← findTable?_withoutCaches, ← findTable?_withoutCaches, h]

theorem exists_of_map_eq_some {α β : Type} {f : α → β} {x y : Option α} {a : α}
    (h : x.map f = y.map f) (hx : x = some a) : ∃ b, y = some b ∧ f b = f a := by
  rw [hx, Option.map_some] at h
  obtain ⟨b, hb, hf⟩ := Option.map_eq_some_iff.mp h.symm
  exact ⟨b, hb, hf⟩

/-- The constraint at a place of a column of a table. -/
def constraintAt? (tables : List Table) (name columnName : String) (place : Nat) :
    Option Constraint :=
  ((findTable? tables name).bind fun table => table.columnNamed? columnName).bind fun column =>
    column.constraints[place]?

theorem constraintAt?_withoutCaches :
    constraintAt? (tables.map Table.withoutCaches) name columnName place =
      (constraintAt? tables name columnName place).map Constraint.withoutCache := by
  rw [constraintAt?, constraintAt?, findTable?_withoutCaches]
  cases findTable? tables name with
  | none => rfl
  | some table =>
    rw [Option.map_some, Option.bind_some, Option.bind_some, columnNamed?_withoutCaches]
    cases table.columnNamed? columnName with
    | none => rfl
    | some column =>
      rw [Option.map_some, Option.bind_some, Option.bind_some, Column.withoutCaches,
        List.getElem?_map]

theorem Alike.constraintAt? (h : Alike tables base) :
    (constraintAt? tables name columnName place).map Constraint.withoutCache =
      (SchemaQuery.constraintAt? base name columnName place).map Constraint.withoutCache := by
  rw [← constraintAt?_withoutCaches, ← constraintAt?_withoutCaches, h]

/-! ### Filling a cache -/

theorem withoutCaches_setPlace
    (h : ∀ old, column.constraints[place]? = some old → old.withoutCache = learned.withoutCache) :
    Column.withoutCaches { column with constraints := column.constraints.set place learned } =
      column.withoutCaches := by
  have hset : (column.constraints.set place learned).map Constraint.withoutCache =
      column.constraints.map Constraint.withoutCache := by
    rw [List.map_set]
    apply List.ext_getElem?
    intro other
    by_cases hplace : place = other
    · subst hplace
      cases hold : column.constraints[place]? with
      | none =>
        have hlength := List.getElem?_eq_none_iff.mp hold
        simpa [List.getElem?_set, hold] using hlength
      | some old =>
        have hlength := (List.getElem?_eq_some_iff.mp hold).1
        simpa [List.getElem?_set, hold, h old hold] using hlength
    · rw [List.getElem?_set_ne hplace]
  rw [Column.withoutCaches, Column.withoutCaches, hset]

theorem withoutCaches_setConstraint (hnames : table.columnNames.Nodup)
    (h : ∀ old, (table.columnNamed? columnName).bind (fun c => c.constraints[place]?) = some old →
      old.withoutCache = learned.withoutCache) :
    (table.setConstraint columnName place learned).withoutCaches = table.withoutCaches := by
  have hcolumns : (table.columns.map fun column => if column.name = columnName then
      { column with constraints := column.constraints.set place learned } else column).map
        Column.withoutCaches = table.columns.map Column.withoutCaches := by
    rw [List.map_map]
    refine List.map_congr_left fun column hc => ?_
    rw [Function.comp_apply]
    split
    · next hname =>
      refine withoutCaches_setPlace fun old hold => h old ?_
      rw [← hname, Table.columnNamed?_of_mem hnames hc]
      exact hold
    · rfl
  rw [Table.setConstraint, Table.updateColumn, Table.withoutCaches, Table.withoutCaches, hcolumns]

theorem withoutCaches_changeTable {change : Table → Table}
    (h : ∀ table, findTable? tables name = some table →
      (change table).withoutCaches = table.withoutCaches) :
    (changeTable name change tables).map Table.withoutCaches = tables.map Table.withoutCaches := by
  induction tables with
  | nil => rfl
  | cons found rest ih =>
    rw [changeTable]
    split
    · next hname =>
      have hfound : findTable? (found :: rest) name = some found := by
        rw [findTable?_cons, if_pos hname]
      rw [List.map_cons, List.map_cons, h found hfound]
    · next hname =>
      have hrest : ∀ table, findTable? rest name = some table →
          (change table).withoutCaches = table.withoutCaches := by
        intro table htable
        refine h table ?_
        rw [findTable?_cons, if_neg hname, htable]
      rw [List.map_cons, List.map_cons, ih hrest]

theorem nodup_of_alike (hnames : ∀ known ∈ base, known.columnNames.Nodup) (h : Alike tables base) :
    ∀ table ∈ tables, table.columnNames.Nodup := by
  intro table htable
  have hmem : table.withoutCaches ∈ base.map Table.withoutCaches := by
    rw [← h]
    exact List.mem_map_of_mem htable
  obtain ⟨known, hknown, hsame⟩ := List.mem_map.mp hmem
  rw [← Table.columnNames_withoutCaches, ← hsame, Table.columnNames_withoutCaches]
  exact hnames known hknown

/-- A constraint that differs from the one at a place in its cache only can be put there. -/
theorem Alike.setConstraint (hnames : ∀ known ∈ base, known.columnNames.Nodup)
    (h : Alike tables base)
    (hlearned : ∀ old, SchemaQuery.constraintAt? base name columnName place = some old →
      old.withoutCache = learned.withoutCache) :
    Alike (changeTable name (fun table => table.setConstraint columnName place learned) tables)
      base := by
  refine (withoutCaches_changeTable fun table hfound => ?_).trans h
  refine withoutCaches_setConstraint (nodup_of_alike hnames h table (mem_of_findTable? hfound))
    fun old hold => ?_
  have hat : SchemaQuery.constraintAt? tables name columnName place = some old := by
    rw [SchemaQuery.constraintAt?, hfound, Option.bind_some]
    exact hold
  obtain ⟨known, hknown, hsame⟩ := exists_of_map_eq_some h.constraintAt? hat
  rw [← hsame]
  exact hlearned known hknown

/-! ### Reading rows -/

namespace Database

variable {ε : Type} {engine : Engine ε}

/-- Whether an error is one of those that a check may end with: a constraint that does not allow the
value, no open connection, or an error of the engine. -/
def CheckFails (engine : Engine ε) (e : Error) : Prop :=
  (∃ fault, e = .constraint fault) ∨ e = .connectionNotOpen ∨
    ∃ text options state, (outcome (engine.execute text options) state).1 = .error e

/-- Whether a step changes nothing in a registry but caches, and fails as a check may. -/
abbrev KeepsAlike {α : Type} (engine : Engine ε) (base : List Table) (gives : α → Prop)
    (step : Action (Database ε) α) : Prop :=
  Keeps (fun database => Alike database.tables base) gives (CheckFails engine) step

/-- The request for columns of a table. -/
def fetchRequest (owner : String) (columns : List String) (distinct : Bool) : Request :=
  { method := if distinct then "distinct" else "select", table := .byName owner,
    fields := Fields.columns (columns.map .byName) }

theorem ofText_fetchMethod (distinct : Bool) :
    Method.ofText (if distinct then "distinct" else "select") =
      .ok (if distinct then .distinct else .select) := by
  cases distinct <;> decide +kernel

theorem validate_fetchRequest {database : Database ε} {owner : String} {columns : List String}
    (distinct : Bool) (hfound : database.table? owner = some table)
    (hcolumns : ∀ column ∈ columns, (table.columnNamed? column).isSome) :
    (fetchRequest owner columns distinct).validate (database.catalog engine) =
      if database.isOpen engine then
        .ok ⟨if distinct then .distinct else .select, some table⟩
      else .error .connectionNotOpen := by
  cases hopen : database.isOpen engine with
  | false =>
    rw [if_neg Bool.false_ne_true, Request.validate, Request.resolve]
    simp only [catalog, hopen]
    rfl
  | true =>
    have hresolve : ∀ column ∈ columns, ∃ found, table.resolve (.byName column) = .ok found := by
      intro column hc
      obtain ⟨found, hcolumn⟩ := Option.isSome_iff_exists.mp (hcolumns column hc)
      refine ⟨found, ?_⟩
      simp only [Table.resolve, Table.resolve?, Table.column?, hcolumn]
    have hall : (columns.map ColumnRef.byName).forM
        (fun reference => (table.resolve reference).map fun _ => ()) = .ok () := by
      refine forM_eq_ok_iff.mpr (List.forall_mem_map.mpr fun column hc => ?_)
      obtain ⟨found, hfound⟩ := hresolve column hc
      rw [hfound]
      rfl
    have hfind : (database.catalog engine).table? owner = some table := hfound
    rw [if_pos rfl]
    refine Request.validate_eq_ok_iff.mpr ⟨Request.resolve_eq_ok_iff.mpr ⟨hopen, ?_, ?_⟩, ?_, ?_⟩
    · exact ofText_fetchMethod distinct
    · cases distinct <;>
        simp only [fetchRequest, Request.resolveTable, TableRef.name, hfind] <;> rfl
    · cases distinct <;> rfl
    · refine Request.checkSchema_eq_ok_iff.mpr ⟨?_, ?_, ?_, ?_⟩
      · cases distinct <;> exact hall
      · cases distinct <;> rfl
      · cases distinct <;> rfl
      · cases distinct <;> rfl

/-- Whether a registry and all that are like it have a table with these columns. -/
def HasColumns (base : List Table) (owner : String) (columns : List String) : Prop :=
  ∀ tables, Alike tables base → ∃ table, findTable? tables owner = some table ∧
    ∀ column ∈ columns, (table.columnNamed? column).isSome

theorem keepsAlike_fetch {owner : String} {columns : List String} (distinct : Bool)
    (h : HasColumns base owner columns) :
    KeepsAlike engine base (fun _ => True) (fetch engine owner columns distinct) := by
  have hsubmit : KeepsAlike engine base (fun _ => True)
      (submit engine (fetchRequest owner columns distinct)) := by
    intro database hinv
    obtain ⟨table, hfound, hcolumns⟩ := h database.tables hinv
    have hvalidate : (fetchRequest owner columns distinct).validate (database.catalog engine) = _ :=
      validate_fetchRequest distinct hfound hcolumns
    have hmethod : ∀ resolved,
        (fetchRequest owner columns distinct).validate (database.catalog engine) = .ok resolved →
        resolved.method = .distinct ∨ resolved.method = .select := by
      intro resolved hvalid
      rw [hvalidate] at hvalid
      split at hvalid <;> cases hvalid
      cases distinct
      · exact .inr rfl
      · exact .inl rfl
    have hends := ends_submit engine (fetchRequest owner columns distinct) database
    generalize outcome (submit engine (fetchRequest owner columns distinct)) database =
      ended at hends
    cases hends with
    | rejected invalid =>
      rw [hvalidate] at invalid
      split at invalid <;> cases invalid
      exact ⟨hinv, .inr (.inl rfl)⟩
    | unanswered runs => exact ⟨hinv, .inr (.inr ⟨_, _, _, congrArg Prod.fst runs.run⟩)⟩
    | @unread _ _ answer _ _ runs unread =>
      obtain hm | hm := hmethod _ runs.valid <;> rw [hm] at unread <;> cases answer <;> cases unread
    | kept runs read keeps => exact ⟨hinv, trivial⟩
    | changed runs read changes =>
      obtain hm | hm := hmethod _ runs.valid <;> rw [hm] at changes <;> cases changes
  exact hsubmit.bind fun _ _ => keeps_pure trivial

theorem isSome_columnNamed?_iff :
    (table.columnNamed? columnName).isSome ↔ columnName ∈ table.columnNames := by
  rw [Table.columnNamed?, List.find?_isSome, Table.columnNames, List.mem_map]
  simp

theorem hasColumns_of_mem {owner : String} {columns : List String}
    (hfound : findTable? base owner = some table)
    (h : ∀ column ∈ columns, column ∈ table.columnNames) : HasColumns base owner columns := by
  intro tables halike
  obtain ⟨other, hother, hsame⟩ := exists_of_map_eq_some halike.findTable?.symm hfound
  refine ⟨other, hother, fun column hc => isSome_columnNamed?_iff.mpr ?_⟩
  rw [← Table.columnNames_withoutCaches, hsame, Table.columnNames_withoutCaches]
  exact h column hc

theorem exists_of_columnAt?_isSome {target : ColumnKey} (h : (columnAt? base target).isSome) :
    ∃ owner known, target.table = some owner ∧ findTable? base owner = some known ∧
      target.column ∈ known.columnNames := by
  obtain ⟨column, hc⟩ := Option.isSome_iff_exists.mp h
  obtain ⟨known, htable, hcolumn⟩ := Option.bind_eq_some_iff.mp hc
  obtain ⟨owner, howner, hfound⟩ := Option.bind_eq_some_iff.mp htable
  exact ⟨owner, known, howner, hfound, isSome_columnNamed?_iff.mp (by rw [hcolumn]; rfl)⟩

theorem keepsAlike_table {owner : String} (hfound : findTable? base owner = some table) :
    KeepsAlike engine base (fun found => found.withoutCaches = table.withoutCaches)
      ((source engine).table owner) := by
  refine keeps_get.bind fun database halike => ?_
  obtain ⟨other, hother, hsame⟩ := exists_of_map_eq_some (Alike.findTable? halike).symm hfound
  have hsource : (source engine).table? database owner = some other := hother
  rw [hsource]
  exact keeps_pure hsame

/-! ### Filling the caches of constraints -/

theorem keepsAlike_owner {target : ColumnKey} {owner : String} (h : target.table = some owner) :
    KeepsAlike engine base (fun found => found = owner) (liftM target.owner) := by
  rw [ColumnKey.owner, h]
  refine keeps_lift (fun _ hok => (Except.ok.inj hok).symm) fun e he => ?_
  cases he

/-- The columns read for an index are columns of its table. -/
theorem mem_wanted {index : Index} {found : Table}
    (hsame : found.withoutCaches = table.withoutCaches)
    (htarget : index.target.column ∈ table.columnNames) :
    ∀ column ∈ index.wanted found, column ∈ table.columnNames := by
  have hnames : found.columnNames = table.columnNames := by
    rw [← Table.columnNames_withoutCaches, hsame, Table.columnNames_withoutCaches]
  have hkeyed :
      ∀ column ∈ (found.columns.filter fun column => column.constraints.any Constraint.isKeyed).map
      Column.name, column ∈ table.columnNames := by
    intro column hc
    obtain ⟨known, hknown, rfl⟩ := List.mem_map.mp hc
    rw [← hnames]
    exact List.mem_map_of_mem (List.mem_of_mem_filter hknown)
  intro column hc
  rw [Index.wanted] at hc
  split at hc
  · exact hkeyed column hc
  · obtain rfl | hc := List.mem_cons.mp hc
    · exact htarget
    · exact hkeyed column hc

theorem keepsAlike_fillIndex {index : Index} (h : (columnAt? base index.target).isSome) :
    KeepsAlike engine base
      (fun filled => { filled with cache := none : Index } = { index with cache := none })
      (index.fill (source engine)) := by
  obtain ⟨owner, known, howner, hfound, hcolumn⟩ := exists_of_columnAt?_isSome h
  rw [Index.fill]
  split
  · exact keeps_pure rfl
  · refine (keepsAlike_owner howner).bind fun _ => ?_
    rintro rfl
    refine (keepsAlike_table hfound).bind fun found hsame => ?_
    refine Keeps.bind
      (keepsAlike_fetch false (hasColumns_of_mem hfound (mem_wanted hsame hcolumn))) ?_
    exact fun rows _ => keeps_pure rfl

theorem keepsAlike_fillUnique {unique : Unique} (h : (columnAt? base unique.target).isSome) :
    KeepsAlike engine base
      (fun filled => { filled with cache := none : Unique } = { unique with cache := none })
      (unique.fill (source engine)) := by
  obtain ⟨owner, known, howner, hfound, hcolumn⟩ := exists_of_columnAt?_isSome h
  rw [Unique.fill]
  split
  · exact keeps_pure rfl
  · refine (keepsAlike_owner howner).bind fun _ => ?_
    rintro rfl
    have hcolumns := hasColumns_of_mem hfound (List.forall_mem_singleton.mpr hcolumn)
    exact Keeps.bind (keepsAlike_fetch true hcolumns) fun rows _ => keeps_pure rfl

theorem keepsAlike_fillKeyed (h : c.isKeyed = true → (columnAt? base c.target).isSome) :
    KeepsAlike engine base (fun filled => filled.1.withoutCache = c.withoutCache)
      (c.fillKeyed (source engine)) := by
  cases c with
  | index i =>
    exact (keepsAlike_fillIndex (h rfl)).bind fun _ hsame =>
      keeps_pure (congrArg Constraint.index hsame)
  | unique u =>
    exact (keepsAlike_fillUnique (h rfl)).bind fun _ hsame =>
      keeps_pure (congrArg Constraint.unique hsame)
  | primary u =>
    exact (keepsAlike_fillUnique (h rfl)).bind fun _ hsame =>
      keeps_pure (congrArg Constraint.primary hsame)
  | foreign key => exact keeps_throw (.inl ⟨_, rfl⟩)

theorem target_withoutCache (c : Constraint) : c.withoutCache.target = c.target := by
  cases c <;> rfl

theorem isKeyed_withoutCache (c : Constraint) : c.withoutCache.isKeyed = c.isKeyed := by
  cases c <;> rfl

/-- The places of keyed constraints are those of the columns that have them. -/
theorem isSome_target (h : IsRegistry base) {constraint : Constraint}
    (hat : constraintAt? base name columnName place = some c)
    (hsame : c.withoutCache = constraint.withoutCache) (hkeyed : constraint.isKeyed = true) :
    (columnAt? base constraint.target).isSome := by
  rw [← isKeyed_withoutCache, ← hsame, isKeyed_withoutCache] at hkeyed
  rw [← target_withoutCache, ← hsame, target_withoutCache]
  obtain ⟨column, hcolumn, hplace⟩ := Option.bind_eq_some_iff.mp hat
  obtain ⟨table, htable, hnamed⟩ := Option.bind_eq_some_iff.mp hcolumn
  have hmem := (Table.mem_of_columnNamed? hnamed).1
  have hown := ((h.find htable).1.columns column hmem).ownKey c (List.mem_of_getElem? hplace) hkeyed
  rw [hown, columnAt?_key h (mem_of_findTable? htable) hmem]
  rfl

/-- The columns that foreign keys lead to are there. -/
theorem isSome_foreign (htwo : TwoSided base) {key : ForeignKey}
    (hat : constraintAt? base name columnName place = some c)
    (hsame : c.withoutCache = (Constraint.foreign key).withoutCache) :
    (columnAt? base key.foreign).isSome := by
  obtain ⟨other, rfl, hforeign⟩ : ∃ other, c = .foreign other ∧ other.foreign = key.foreign := by
    cases c with
    | foreign other =>
      have hkeys : { other with cache := none : ForeignKey } = { key with cache := none } :=
        Constraint.foreign.inj hsame
      exact ⟨other, rfl, (congrArg ForeignKey.foreign hkeys :)⟩
    | _ => cases hsame
  rw [← hforeign]
  obtain ⟨column, hcolumn, hplace⟩ := Option.bind_eq_some_iff.mp hat
  obtain ⟨table, htable, hnamed⟩ := Option.bind_eq_some_iff.mp hcolumn
  exact (htwo table (mem_of_findTable? htable) column (Table.mem_of_columnNamed? hnamed).1 other
    (List.mem_of_getElem? hplace)).2.isSome

/-- A constraint that a table has is one that the base has, but for its cache. -/
theorem exists_constraintAt? {owner : String} {found : Table} {constraint : Constraint}
    (hfound : findTable? base owner = some table)
    (hsame : found.withoutCaches = table.withoutCaches)
    (hcolumn : found.columnNamed? columnName = some column)
    (hplace : column.constraints[place]? = some constraint) :
    ∃ known, constraintAt? base owner columnName place = some known ∧
      known.withoutCache = constraint.withoutCache := by
  have hcolumns : (found.columnNamed? columnName).map Column.withoutCaches =
      (table.columnNamed? columnName).map Column.withoutCaches := by
    rw [← columnNamed?_withoutCaches, ← columnNamed?_withoutCaches, hsame]
  obtain ⟨other, hother, hcolumnSame⟩ := exists_of_map_eq_some hcolumns hcolumn
  have hconstraints : (column.constraints[place]?).map Constraint.withoutCache =
      (other.constraints[place]?).map Constraint.withoutCache := by
    rw [← List.getElem?_map, ← List.getElem?_map]
    exact congrArg (fun c : Column => c.constraints[place]?) hcolumnSame.symm
  obtain ⟨known, hknown, hknownSame⟩ := exists_of_map_eq_some hconstraints hplace
  refine ⟨known, ?_, hknownSame⟩
  rw [constraintAt?, hfound, Option.bind_some, hother, Option.bind_some, hknown]

theorem keepsAlike_foreignKeys (h : IsRegistry base) {key : ForeignKey}
    (hforeign : (columnAt? base key.foreign).isSome) :
    KeepsAlike engine base (fun _ => True) (key.foreignKeys (source engine)) := by
  obtain ⟨owner, known, howner, hfound, hcolumn⟩ := exists_of_columnAt?_isSome hforeign
  rw [ForeignKey.foreignKeys]
  refine (keepsAlike_owner howner).bind fun found hsame => ?_
  subst hsame
  refine (keepsAlike_table hfound).bind fun table hsame => ?_
  have hnames : table.columnNames = known.columnNames := by
    rw [← Table.columnNames_withoutCaches, hsame, Table.columnNames_withoutCaches]
  rw [← hnames] at hcolumn
  obtain ⟨column, hnamed⟩ := Option.isSome_iff_exists.mp (isSome_columnNamed?_iff.mpr hcolumn)
  have hcolumn? : table.column? key.foreign.column = some column := by
    rw [Table.column?, hnamed]
  have hname : table.name = found :=
    (Table.name_of_withoutCaches hsame).trans (name_of_findTable? hfound)
  rw [hcolumn?]
  dsimp only
  split
  · exact keeps_throw (.inl ⟨_, rfl⟩)
  · next place _ =>
    split
    · exact keeps_throw (.inl ⟨_, rfl⟩)
    · next constraint hplace =>
      obtain ⟨old, hold, holdSame⟩ := exists_constraintAt? hfound hsame hnamed hplace
      refine (keepsAlike_fillKeyed (isSome_target h hold holdSame)).bind fun filled hfilled => ?_
      refine Keeps.bind (keeps_modify fun database halike => ?_) fun _ _ => keeps_pure trivial
      refine Alike.setConstraint h.columnNames halike fun other hother => ?_
      rw [hname, (Table.mem_of_columnNamed? hnamed).2] at hother
      cases hold.symm.trans hother
      exact holdSame.trans hfilled.symm

theorem keepsAlike_fillForeign (h : IsRegistry base) {key : ForeignKey}
    (hforeign : (columnAt? base key.foreign).isSome) :
    KeepsAlike engine base
      (fun filled => { filled with cache := none : ForeignKey } = { key with cache := none })
      (key.fill (source engine)) := by
  rw [ForeignKey.fill]
  split
  · exact keeps_pure rfl
  · exact (keepsAlike_foreignKeys h hforeign).bind fun _ _ => keeps_pure rfl

theorem keepsAlike_fill (h : IsRegistry base) (htwo : TwoSided base) {constraint : Constraint}
    (hat : constraintAt? base name columnName place = some c)
    (hsame : c.withoutCache = constraint.withoutCache) :
    KeepsAlike engine base (fun filled => filled.withoutCache = constraint.withoutCache)
      (constraint.fill (source engine)) := by
  have hkeyed : constraint.isKeyed = true → (columnAt? base constraint.target).isSome :=
    isSome_target h hat hsame
  cases constraint with
  | index i =>
    rw [Constraint.fill, map_eq_pure_bind]
    exact (keepsAlike_fillIndex (hkeyed rfl)).bind fun _ hi =>
      keeps_pure (congrArg Constraint.index hi)
  | unique u =>
    rw [Constraint.fill, map_eq_pure_bind]
    exact (keepsAlike_fillUnique (hkeyed rfl)).bind fun _ hu =>
      keeps_pure (congrArg Constraint.unique hu)
  | primary u =>
    rw [Constraint.fill, map_eq_pure_bind]
    exact (keepsAlike_fillUnique (hkeyed rfl)).bind fun _ hu =>
      keeps_pure (congrArg Constraint.primary hu)
  | foreign key =>
    rw [Constraint.fill, map_eq_pure_bind]
    refine (keepsAlike_fillForeign h (isSome_foreign htwo hat hsame)).bind fun _ hk => ?_
    exact keeps_pure (congrArg Constraint.foreign hk)

/-! ### Checks -/

theorem fails_of_verdict {value : Value} {constraint : Constraint} {e : Error}
    (h : constraint.verdict value = .error e) : CheckFails engine e := by
  cases constraint with
  | index i => cases h
  | unique u | primary u | foreign key =>
    rw [Constraint.verdict] at h
    split at h <;> cases h
    exact .inl ⟨_, rfl⟩

/-- A check does what filling does, and turns what comes of it into a verdict. -/
theorem outcome_check {σ : Type} (from? : RowSource σ) (value : Value) (constraint : Constraint)
    (state : σ) : outcome (liftM (constraint.check from? value) : Action σ _) state =
      match outcome (constraint.fill from?) state with
      | (.ok filled, after) => (.ok (filled.verdict value, filled), after)
      | (.error e, after) => (.ok (.error e, constraint), after) := by
  rw [outcome_liftState, Constraint.run_check]
  cases outcome (constraint.fill from?) state with
  | mk result after => cases result <;> rfl

theorem keepsAlike_check (h : IsRegistry base) (htwo : TwoSided base) {constraint : Constraint}
    (value : Value) (hat : constraintAt? base name columnName place = some c)
    (hsame : c.withoutCache = constraint.withoutCache) :
    KeepsAlike engine base (fun checked => checked.2.withoutCache = constraint.withoutCache ∧
        ∀ e, checked.1 = .error e → CheckFails engine e)
      (liftM (constraint.check (source engine) value)) := by
  intro database halike
  have hfills : KeepsAlike engine base (fun filled => filled.withoutCache = constraint.withoutCache)
      (constraint.fill (source engine)) := keepsAlike_fill h htwo hat hsame
  have hfill := hfills database halike
  rw [outcome_check]
  cases hout : outcome (constraint.fill (source engine)) database with
  | mk result after =>
    rw [hout] at hfill
    cases result with
    | ok filled => exact ⟨hfill.1, hfill.2, fun e he => fails_of_verdict he⟩
    | error e =>
      refine ⟨hfill.1, rfl, fun e' he => ?_⟩
      cases he
      exact hfill.2

theorem keepsAlike_checkAt (h : IsRegistry base) (htwo : TwoSided base) (table column : String)
    (place : Nat) (value : Value) :
    KeepsAlike engine base (fun _ => True) ((source engine).checkAt table column place value) := by
  rw [RowSource.checkAt]
  refine keeps_get.bind fun database halike => ?_
  have hsource : (((source engine).table? database table).bind fun t => t.columnNamed? column).bind
      (fun c => c.constraints[place]?) = constraintAt? database.tables table column place := rfl
  dsimp only
  rw [hsource]
  cases hfound : constraintAt? database.tables table column place with
  | none => exact keeps_pure trivial
  | some constraint =>
    obtain ⟨known, hknown, hsame⟩ := exists_of_map_eq_some halike.constraintAt? hfound
    refine (keepsAlike_check h htwo value hknown hsame).bind fun checked hchecked => ?_
    obtain ⟨hlearned, hfails⟩ := hchecked
    refine Keeps.bind (keeps_modify fun database halike => ?_) fun _ _ =>
      keeps_lift (fun _ _ => trivial) hfails
    refine Alike.setConstraint h.columnNames halike fun old hold => ?_
    cases hknown.symm.trans hold
    exact hsame.trans hlearned.symm

/-- In a registry of two-sided keys, a value can be checked against every column: the check misses
neither a table nor a column. -/
theorem checkFails_of_checkValue {database last : Database ε} {value : Value} {e : Error}
    (h : IsRegistry database.tables) (htwo : TwoSided database.tables)
    (ht : table ∈ database.tables)
    (hc : column ∈ table.columns)
    (hrun : outcome (checkValue engine table.name column.name value) database = (.error e, last)) :
    CheckFails engine e := by
  have hfound : database.table? table.name = some table := findTable?_of_mem h.names ht
  have hnamed : table.columnNamed? column.name = some column :=
    Table.columnNamed?_of_mem (h.consistent table ht).names hc
  have hcolumn : table.column? column.name = some column := by rw [Table.column?, hnamed]
  rw [checkValue, outcome_bind_of_ok (outcome_requireTable_of_some hfound), hcolumn] at hrun
  dsimp only at hrun
  have hchecks : ∀ places : List Nat, KeepsAlike engine database.tables (fun _ => True)
      (places.forM fun place => (source engine).checkAt table.name column.name place value) :=
    fun places => Keeps.forM fun place _ => keepsAlike_checkAt h htwo _ _ place value
  obtain ⟨places, hrun⟩ : ∃ places : List Nat, outcome (places.forM fun place =>
      (source engine).checkAt table.name column.name place value) database =
        (.error e, last) := ⟨_, hrun⟩
  have hlast := (hchecks places database rfl).2
  rw [hrun] at hlast
  exact hlast

end Database

end SchemaQuery
