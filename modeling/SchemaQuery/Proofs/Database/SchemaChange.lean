import SchemaQuery.Database.SchemaChange
import SchemaQuery.Proofs.Action
import SchemaQuery.Proofs.Catalog
import SchemaQuery.Proofs.Except
import SchemaQuery.Proofs.Request.Validation

/-! What the operations of a database leave behind.  A statement changes nothing but the state of
the engine; a description gives a table of the name that was asked for, and the operations after a
schema change put such tables into the registry. -/

namespace SchemaQuery.Database

variable {ε α : Type} {engine : Engine ε} {database after : Database ε} {name : String}

/-! ### Statements -/

/-- The database with its engine in another state. -/
def withEngine (database : Database ε) (state : ε) : Database ε := { database with engine := state }

@[simp] theorem tables_withEngine (state : ε) :
    (database.withEngine state).tables = database.tables := rfl

@[simp] theorem engine_withEngine (state : ε) : (database.withEngine state).engine = state := rfl

@[simp] theorem table?_withEngine (state : ε) :
    (database.withEngine state).table? name = database.table? name := rfl

theorem outcome_onEngine (operation : Action ε α) : outcome (onEngine operation) database =
    ((outcome operation database.engine).1,
      database.withEngine (outcome operation database.engine).2) := by
  simp only [onEngine, outcome_bind, outcome_get]
  rfl

theorem outcome_run (text : String) (options : ExecOptions) :
    outcome (run engine text options) database = if database.isOpen engine then
      ((outcome (engine.execute text options) database.engine).1,
        database.withEngine (outcome (engine.execute text options) database.engine).2)
    else (.error .connectionNotOpen, database) := by
  rw [run, whenOpen, outcome_bind]
  simp only [outcome_get, ← outcome_onEngine]
  cases database.isOpen engine <;> rfl

/-- What the rows that describe a table say of it. -/
def readDescription (name : String) (answer : Option (List Row)) : Except Error Table := do
  let output ← Output.ofAnswer .describe none answer
  Table.ofDefinitions name output.toNames

theorem outcome_describeTable : outcome (describeTable engine name) database =
    match outcome (run engine (describeText name) { expectsRows := true }) database with
    | (.ok answer, after) => (readDescription name answer, after)
    | (.error e, after) => (.error e, after) := by
  rw [describeTable, runForNames, bind_assoc, outcome_bind]
  rcases outcome (run engine (describeText name) { expectsRows := true }) database with
    ⟨result, after⟩
  cases result with
  | error e => rfl
  | ok answer =>
    simp only [bind_assoc, outcome_bind, outcome_lift, readDescription]
    cases Output.ofAnswer .describe none answer with
    | error e => rfl
    | ok output => exact outcome_lift _ _

theorem name_of_ofDefinitions {definitions : List String} {table : Table}
    (h : Table.ofDefinitions name definitions = .ok table) : table.name = name := by
  obtain ⟨columns, -, h⟩ := bind_eq_ok_iff.mp h
  rw [Table.make] at h
  split at h <;> cases h
  rfl

theorem name_of_readDescription {answer : Option (List Row)} {table : Table}
    (h : readDescription name answer = .ok table) : table.name = name := by
  obtain ⟨output, -, h⟩ := bind_eq_ok_iff.mp h
  exact name_of_ofDefinitions h

/-- A description changes nothing but the state of the engine, and gives a table of the name. -/
theorem exists_outcome_describeTable (engine : Engine ε) (name : String) (database : Database ε) :
    ∃ result state, outcome (describeTable engine name) database =
      (result, database.withEngine state) ∧ ∀ table, result = .ok table → table.name = name := by
  rw [outcome_describeTable, outcome_run]
  cases database.isOpen engine with
  | false => exact ⟨_, database.engine, rfl, fun table h => (nomatch h)⟩
  | true =>
    rw [if_pos rfl]
    cases outcome (engine.execute (describeText name) { expectsRows := true }) database.engine with
    | mk result state =>
      cases result with
      | error e => exact ⟨_, state, rfl, fun table h => (nomatch h)⟩
      | ok answer => exact ⟨_, state, rfl, fun table h => name_of_readDescription h⟩

theorem name_of_describeTable {table : Table}
    (h : outcome (describeTable engine name) database = (.ok table, after)) :
    table.name = name := by
  obtain ⟨result, state, ho, hname⟩ := exists_outcome_describeTable engine name database
  rw [ho] at h
  exact hname table (congrArg Prod.fst h)

/-! ### Writing to the registry -/

/-- The database with another registry. -/
def withTables (database : Database ε) (tables : List Table) : Database ε :=
  { database with tables }

@[simp] theorem tables_withTables (tables : List Table) :
    (database.withTables tables).tables = tables := rfl

@[simp] theorem engine_withTables (tables : List Table) :
    (database.withTables tables).engine = database.engine := rfl

@[simp] theorem isOpen_withTables (tables : List Table) :
    (database.withTables tables).isOpen engine = database.isOpen engine := rfl

@[simp] theorem outcome_replaceTable (table : Table) : outcome (replaceTable table) database =
    (.ok (), database.withTables (putTable database.tables table)) := rfl

@[simp] theorem outcome_removeTable (name : String) : outcome (removeTable name) database =
    (.ok (database.table? name),
      database.withTables (database.tables.eraseP fun table => table.name == name)) := rfl

theorem outcome_requireTable_of_some {table : Table} (h : database.table? name = some table) :
    outcome (requireTable name) database = (.ok table, database) := by
  rw [requireTable, outcome_bind_of_ok (outcome_get database), h]
  rfl

theorem outcome_requireTable_of_none (h : database.table? name = none) :
    outcome (requireTable name) database = (.error (.table (.unknown name)), database) := by
  rw [requireTable, outcome_bind_of_ok (outcome_get database), h]
  rfl

theorem outcome_targetColumn_of_ok {table : Table} {reference : ColumnRef} {column : Column}
    (ht : database.table? name = some table) (hr : table.resolve reference = .ok column) :
    outcome (targetColumn name (.column reference)) database = (.ok column.name, database) := by
  rw [targetColumn, outcome_bind_of_ok (outcome_requireTable_of_some ht)]
  cases hfound : table.resolve? reference with
  | none =>
    rw [Table.resolve, hfound] at hr
    cases hr
  | some found =>
    rw [Table.resolve, hfound] at hr
    cases hr
    rfl

/-- What the registry holds makes no difference to a description. -/
theorem outcome_describeTable_withTables (tables : List Table) :
    outcome (describeTable engine name) (database.withTables tables) =
      ((outcome (describeTable engine name) database).1,
        (outcome (describeTable engine name) database).2.withTables tables) := by
  rw [outcome_describeTable, outcome_describeTable, outcome_run, outcome_run, isOpen_withTables,
    engine_withTables]
  cases database.isOpen engine with
  | false => rfl
  | true =>
    cases outcome (engine.execute (describeText name) { expectsRows := true }) database.engine with
    | mk result state => cases result <;> rfl

/-- The snapshot that takes the place of a former one. -/
def renewed (former : Option Table) (dropped : Option Constraint) (table : Table) : Table :=
  match former with
  | some former => former.carryForeignKeys dropped { table with temporary := former.temporary }
  | none => table

@[simp] theorem name_renewed (former : Option Table) (dropped : Option Constraint) (table : Table) :
    (renewed former dropped table).name = table.name := by
  cases former <;> rfl

theorem outcome_refreshTable (name : String) (dropped : Option Constraint) :
    outcome (refreshTable engine name dropped) database =
      match outcome (describeTable engine name) database with
      | (.ok table, after) =>
        (.ok (), after.withTables
          (putTable after.tables (renewed (database.table? name) dropped table)))
      | (.error e, after) => (.error e, after) := by
  simp only [refreshTable, outcome_bind, outcome_get]
  cases outcome (describeTable engine name) database with
  | mk result after =>
    cases result with
    | error e => rfl
    | ok table => cases database.table? name <;> rfl

/-- A refresh concerns the look-ups of its own name only. -/
theorem table?_of_refreshTable {dropped : Option Constraint} {result : Except Error Unit}
    {other : String} (h : outcome (refreshTable engine name dropped) database = (result, after))
    (hne : name ≠ other) : after.table? other = database.table? other := by
  obtain ⟨described, state, hd, hname⟩ := exists_outcome_describeTable engine name database
  rw [outcome_refreshTable, hd] at h
  cases described with
  | error e =>
    cases h
    rfl
  | ok table =>
    cases h
    refine findTable?_putTable_of_ne ?_
    rwa [name_renewed, hname table rfl]

theorem outcome_loadTable (name : String) (temporary : Bool) :
    outcome (loadTable engine name temporary) database =
      match outcome (describeTable engine name) database with
      | (.ok table, after) =>
        (.ok (), after.withTables (putTable after.tables { table with temporary }))
      | (.error e, after) => (.error e, after) := by
  rw [loadTable, outcome_bind]
  cases outcome (describeTable engine name) database with
  | mk result after => cases result <;> rfl

/-- What is done for a foreign key whose column is found: both tables are described again, and then
the key is noted on them. -/
theorem outcome_applyForeignKey {table : Table} {column : Column} {reference foreign : ColumnRef}
    {foreignTable foreignColumn : String} {key : Option String}
    (ht : database.table? name = some table) (hr : table.resolve reference = .ok column)
    (hs : foreign.splitQualified = .ok (foreignTable, foreignColumn)) :
    outcome (applyForeignKey engine name (.column reference) (some foreign) key) database =
      outcome (do
        refreshTable engine name none
        refreshTable engine foreignTable none
        linkForeignKey name column.name foreignTable foreignColumn key) database := by
  rw [applyForeignKey, outcome_bind_of_ok (outcome_targetColumn_of_ok ht hr)]
  dsimp only
  rw [outcome_bind_of_ok (by rw [outcome_lift, hs])]

/-- A foreign key is noted on both snapshots or on none of them. -/
theorem outcome_linkForeignKey (database : Database ε)
    (table column foreignTable foreignColumn : String) (name : Option String) :
    (∃ e, outcome (linkForeignKey table column foreignTable foreignColumn name) database =
      (.error e, database)) ∨
    ∃ target foreign, database.table? table = some target ∧
      database.table? foreignTable = some foreign ∧
      ∃ referencing referenced, target.columnNamed? column = some referencing ∧
        foreign.columnNamed? foreignColumn = some referenced ∧
        ∃ linked, referencing.link referenced name = .ok linked ∧
          outcome (linkForeignKey table column foreignTable foreignColumn name) database = (.ok (),
            database.withTables (putTable
              (putTable database.tables (target.updateColumn column fun _ => linked.2.1))
              (foreign.updateColumn foreignColumn fun _ => linked.2.2))) := by
  rw [linkForeignKey]
  cases ht : database.table? table with
  | none => exact .inl ⟨_, outcome_bind_of_error (outcome_requireTable_of_none ht)⟩
  | some target =>
    rw [outcome_bind_of_ok (outcome_requireTable_of_some ht)]
    cases hf : database.table? foreignTable with
    | none => exact .inl ⟨_, outcome_bind_of_error (outcome_requireTable_of_none hf)⟩
    | some foreign =>
      rw [outcome_bind_of_ok (outcome_requireTable_of_some hf)]
      cases hr : foreign.columnNamed? foreignColumn with
      | none => exact .inl ⟨_, rfl⟩
      | some referenced =>
        cases hc : target.columnNamed? column with
        | none => exact .inl ⟨_, rfl⟩
        | some referencing =>
          cases hl : referencing.link referenced name with
          | error e => exact .inl ⟨e, outcome_bind_of_error (by rw [outcome_lift, hl])⟩
          | ok linked =>
            exact .inr ⟨target, foreign, rfl, rfl, referencing, referenced, hc, hr, linked, hl,
              outcome_bind_of_ok (by rw [outcome_lift, hl])⟩

/-! ### Changes of the schema -/

/-- What a change of the schema asks of the registry. -/
inductive RegistryChange
  | remove
  | rename (new : String)
  | create (temporary : Bool)
  | link (column foreign : ColumnRef) (key : Option String)
  | unlink (dropped : Constraint)
  | refresh

/-- What a request whose shape has been checked asks of the registry after its statement. -/
def registryChange (method : Method) (request : Request) : RegistryChange :=
  match method, request.fields, request.modifiers.foreign with
  | .dropTable _, _, _ => .remove
  | .renameTable, .column new, _ => .rename new.label
  | .createTable temporary _, _, _ => .create (request.createsTemporary temporary)
  | .addConstraint .foreign, .column column, some foreign =>
    .link column foreign request.modifiers.name
  | .dropConstraint, .constraint dropped, _ => .unlink dropped
  | _, _, _ => .refresh

theorem eq_of_registryChange_link {method : Method} {request : Request} {column foreign : ColumnRef}
    {key : Option String} (h : registryChange method request = .link column foreign key) :
    method = .addConstraint .foreign ∧ request.fields = .column column ∧
      request.modifiers.foreign = some foreign := by
  unfold registryChange at h
  split at h <;> cases h
  exact ⟨rfl, ‹_›, ‹_›⟩

theorem eq_of_registryChange_unlink {method : Method} {request : Request} {dropped : Constraint}
    (h : registryChange method request = .unlink dropped) :
    method = .dropConstraint ∧ request.fields = .constraint dropped := by
  unfold registryChange at h
  split at h <;> cases h
  exact ⟨rfl, ‹_›⟩

theorem eq_of_registryChange_remove {method : Method} {request : Request}
    (h : registryChange method request = .remove) : ∃ temporary, method = .dropTable temporary := by
  unfold registryChange at h
  split at h <;> cases h
  exact ⟨_, rfl⟩

theorem eq_of_registryChange_rename {method : Method} {request : Request} {new : String}
    (h : registryChange method request = .rename new) :
    method = .renameTable ∧ ∃ column, request.fields = .column column ∧ column.label = new := by
  unfold registryChange at h
  split at h <;> cases h
  exact ⟨rfl, _, ‹_›, rfl⟩

theorem eq_of_registryChange_create {method : Method} {request : Request} {temporary : Bool}
    (h : registryChange method request = .create temporary) :
    ∃ asked guarded, method = .createTable asked guarded ∧
      temporary = request.createsTemporary asked := by
  unfold registryChange at h
  split at h <;> cases h
  exact ⟨_, _, rfl, rfl⟩

/-- A change of the schema, given the name of the table that it is about. -/
def RegistryChange.apply (engine : Engine ε) (name : String) :
    RegistryChange → Action (Database ε) Unit
  | .remove => discard (removeTable name)
  | .rename new => do
    let former ← removeTable name
    loadTable engine new (former.any Table.temporary)
  | .create temporary => loadTable engine name temporary
  | .link column foreign key => applyForeignKey engine name (.column column) (some foreign) key
  | .unlink dropped => applyDrop engine name dropped
  | .refresh => refreshTable engine name none

/-- The shape of a request rules out the internal errors of a change: a rename has a name, a new
foreign key has both of its columns, and a drop has its constraint. -/
theorem applyChange_of_checkFields {method : Method} {request : Request}
    (h : Request.checkFields method request = .ok ()) : applyChange engine method request =
      (registryChange method request).apply engine request.table.name := by
  unfold applyChange registryChange
  cases method with
  | renameTable =>
    rw [Request.checkFields] at h
    cases hf : request.fields with
    | column new => rfl
    | _ =>
      rw [hf] at h
      cases h
  | dropConstraint =>
    rw [Request.checkFields] at h
    cases hf : request.fields with
    | constraint dropped => rfl
    | _ =>
      rw [hf] at h
      cases h
  | addConstraint kind =>
    cases kind with
    | foreign =>
      obtain ⟨column, foreign, hf, hforeign⟩ := Request.exists_of_checkAddition h
      rw [hf, hforeign]
      rfl
    | _ => rfl
  | _ => rfl

theorem applyChange_of_validate {catalog : Catalog} {request : Request} {resolved : Resolved}
    (h : request.validate catalog = .ok resolved) : applyChange engine resolved.method request =
      (registryChange resolved.method request).apply engine request.table.name :=
  applyChange_of_checkFields (Request.checkFields_of_validate h)

end SchemaQuery.Database
