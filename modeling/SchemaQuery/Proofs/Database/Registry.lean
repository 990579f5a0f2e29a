import SchemaQuery.Engine.Scripted
import SchemaQuery.Proofs.Database.Ending
import SchemaQuery.Proofs.Table

/-! The registry of a database.  Its tables have different names and are consistent, whatever the
engine answers; the engine is trusted in one point only, not to list a table twice when a connection
is opened. -/

namespace SchemaQuery

/-- Registries of consistent tables with different names. -/
structure IsRegistry (tables : List Table) : Prop where
  names : (tables.map Table.name).Nodup
  consistent : ∀ table ∈ tables, table.IsConsistent

variable {tables : List Table} {table : Table} {name : String}

theorem isRegistry_nil : IsRegistry [] := ⟨List.nodup_nil, nofun⟩

theorem IsRegistry.put (h : IsRegistry tables) (ht : table.IsConsistent) :
    IsRegistry (putTable tables table) := by
  refine ⟨nodup_names_putTable h.names, fun other hother => ?_⟩
  obtain rfl | hother := mem_putTable hother
  · exact ht
  · exact h.consistent other hother

theorem IsRegistry.erase (h : IsRegistry tables) (name : String) :
    IsRegistry (tables.eraseP fun table => table.name == name) := by
  have hsub : (tables.eraseP fun table => table.name == name).Sublist tables := List.eraseP_sublist
  exact ⟨h.names.sublist (hsub.map _), fun other hother => h.consistent other (hsub.subset hother)⟩

theorem IsRegistry.find (h : IsRegistry tables) (hf : findTable? tables name = some table) :
    table.IsConsistent ∧ table.name = name :=
  ⟨h.consistent table (mem_of_findTable? hf), name_of_findTable? hf⟩

theorem IsRegistry.columnNames (h : IsRegistry tables) :
    ∀ table ∈ tables, table.columnNames.Nodup :=
  fun table ht => (h.consistent table ht).names

/-- Tables as the engine describes them: consistent, of the name that was asked for, and without
foreign keys. -/
structure Table.IsDescribed (name : String) (table : Table) : Prop where
  consistent : table.IsConsistent
  name : table.name = name
  noForeign : ∀ column ∈ table.columns, ∀ key, .foreign key ∉ column.constraints

namespace Database

variable {ε : Type} {engine : Engine ε} {database after : Database ε} {fails : Error → Prop}

/-! ### Reading tables -/

theorem isDescribed_of_readDescription {answer : Option (List Row)}
    (h : readDescription name answer = .ok table) : table.IsDescribed name := by
  obtain ⟨output, -, hread⟩ := bind_eq_ok_iff.mp h
  obtain ⟨hconsistent, hforeign⟩ := Table.isConsistent_ofDefinitions hread
  exact ⟨hconsistent, name_of_ofDefinitions hread, hforeign⟩

/-- A description changes nothing but the state of the engine. -/
theorem describeTable_cases (engine : Engine ε) (name : String) (database : Database ε) :
    ∃ result state, outcome (describeTable engine name) database =
      (result, database.withEngine state) ∧ ∀ table, result = .ok table →
      table.IsDescribed name := by
  obtain ⟨result, state, hout, -⟩ := exists_outcome_describeTable engine name database
  refine ⟨result, state, hout, fun table htable => ?_⟩
  rw [outcome_describeTable] at hout
  split at hout
  · next answer after hrun =>
    have hread := (congrArg Prod.fst hout).trans htable
    exact isDescribed_of_readDescription hread
  · cases hout
    cases htable

/-- Whether a step leaves a registry a registry, whatever it answers and however it fails. -/
abbrev KeepsRegistry {α : Type} (gives : α → Prop) (step : Action (Database ε) α) : Prop :=
  Keeps (fun database => IsRegistry database.tables) gives (fun _ => True) step

theorem keepsRegistry_lift {α : Type} (result : Except Error α) :
    KeepsRegistry (fun _ => True) (liftM result : Action (Database ε) α) :=
  keeps_lift (fun _ _ => trivial) fun _ _ => trivial

theorem keeps_describeTable {inv : Database ε → Prop} (engine : Engine ε) (name : String)
    (hengine : ∀ database state, inv database → inv (database.withEngine state)) :
    Keeps inv (Table.IsDescribed name) (fun _ => True) (describeTable engine name) := by
  intro database hinv
  obtain ⟨result, state, hout, hdescribed⟩ := describeTable_cases engine name database
  rw [hout]
  refine ⟨hengine database state hinv, ?_⟩
  cases result with
  | ok table => exact hdescribed table rfl
  | error e => trivial

theorem keepsRegistry_describeTable (engine : Engine ε) (name : String) :
    KeepsRegistry (Table.IsDescribed name) (describeTable engine name) :=
  keeps_describeTable engine name fun _ _ h => h

theorem keepsRegistry_requireTable (name : String) : KeepsRegistry (ε := ε)
    (fun table => table.IsConsistent ∧ table.name = name) (requireTable name) := by
  refine keeps_get.bind fun database hinv => ?_
  cases hfound : database.table? name with
  | some table => exact keeps_pure (hinv.find hfound)
  | none => exact keeps_throw trivial

/-! ### Changes of the schema -/

theorem keepsRegistry_replaceTable (h : table.IsConsistent) :
    KeepsRegistry (ε := ε) (fun _ => True) (replaceTable table) :=
  keeps_modify fun _ hinv => hinv.put h

theorem keepsRegistry_removeTable (name : String) :
    KeepsRegistry (ε := ε) (fun _ => True) (removeTable name) :=
  fun _ hinv => ⟨hinv.erase name, trivial⟩

theorem keepsRegistry_loadTable (engine : Engine ε) (name : String) (temporary : Bool) :
    KeepsRegistry (fun _ => True) (loadTable engine name temporary) :=
  (keepsRegistry_describeTable engine name).bind fun _ hdescribed =>
    keepsRegistry_replaceTable (hdescribed.consistent.setTemporary temporary)

theorem isConsistent_renewed {former : Option Table} (dropped : Option Constraint)
    (hformer : ∀ old ∈ former, old.IsConsistent ∧ old.name = name) (h : table.IsDescribed name) :
    (renewed former dropped table).IsConsistent := by
  cases former with
  | none => exact h.consistent
  | some old =>
    obtain ⟨hold, hname⟩ := hformer old rfl
    exact (h.consistent.setTemporary old.temporary).carryForeignKeys hold (hname.trans h.name.symm)

theorem keepsRegistry_refreshTable (engine : Engine ε) (name : String)
    (dropped : Option Constraint) :
    KeepsRegistry (fun _ => True) (refreshTable engine name dropped) := by
  refine keeps_get.bind fun database hinv => ?_
  refine (keepsRegistry_describeTable engine name).bind fun table hdescribed => ?_
  have hrenewed : (renewed (database.table? name) dropped table).IsConsistent :=
    isConsistent_renewed dropped (fun old hold => hinv.find hold) hdescribed
  cases hformer : database.table? name with
  | none =>
    rw [hformer] at hrenewed
    exact keepsRegistry_replaceTable hrenewed
  | some former =>
    rw [hformer] at hrenewed
    exact keepsRegistry_replaceTable hrenewed

theorem keepsRegistry_linkForeignKey (table column foreignTable foreignColumn : String)
    (name : Option String) : KeepsRegistry (ε := ε) (fun _ => True)
      (linkForeignKey table column foreignTable foreignColumn name) := by
  refine (keepsRegistry_requireTable table).bind fun target htarget => ?_
  refine (keepsRegistry_requireTable foreignTable).bind fun foreign hforeign => ?_
  cases hreferenced : foreign.columnNamed? foreignColumn with
  | none => exact keeps_throw trivial
  | some referenced =>
    cases hreferencing : target.columnNamed? column with
    | none => exact keeps_throw trivial
    | some referencing =>
      refine (keeps_lift (fun linked hlinked => hlinked) fun _ _ => trivial).bind
        fun linked hlinked => ?_
      obtain ⟨⟨hkey, hnew⟩, hotherKey, hotherNew⟩ := Column.isConsistent_link
        (htarget.1.columns _ (Table.mem_of_columnNamed? hreferencing).1)
        (hforeign.1.columns _ (Table.mem_of_columnNamed? hreferenced).1) hlinked
      refine (keepsRegistry_replaceTable (htarget.1.updateColumn hreferencing hkey hnew)).bind
        fun _ _ => ?_
      exact keepsRegistry_replaceTable (hforeign.1.updateColumn hreferenced hotherKey hotherNew)

theorem keepsRegistry_targetColumn (table : String) (reference : ColumnRef) :
    KeepsRegistry (ε := ε) (fun _ => True) (targetColumn table (.column reference)) := by
  refine (keepsRegistry_requireTable table).bind fun known _ => ?_
  cases known.resolve? reference with
  | some column => exact keeps_pure trivial
  | none => exact keeps_throw trivial

theorem keepsRegistry_applyForeignKey (engine : Engine ε) (table : String)
    (column foreign : ColumnRef) (name : Option String) : KeepsRegistry (fun _ => True)
      (applyForeignKey engine table (.column column) (some foreign) name) := by
  refine (keepsRegistry_targetColumn table column).bind fun target _ => ?_
  refine (keepsRegistry_lift _).bind fun ends _ => ?_
  refine (keepsRegistry_refreshTable engine table none).bind fun _ _ => ?_
  refine (keepsRegistry_refreshTable engine ends.1 none).bind fun _ _ => ?_
  exact keepsRegistry_linkForeignKey _ _ _ _ _

theorem keepsRegistry_applyDrop (engine : Engine ε) (table : String) (dropped : Constraint) :
    KeepsRegistry (fun _ => True) (applyDrop engine table dropped) := by
  refine (keepsRegistry_refreshTable engine table _).bind fun _ _ => ?_
  cases dropped with
  | foreign key =>
    dsimp only
    split
    · refine keeps_get.bind fun database _ => ?_
      split
      · exact keepsRegistry_refreshTable engine _ _
      · exact keeps_pure trivial
    · exact keeps_pure trivial
  | _ => exact keeps_pure trivial

theorem keepsRegistry_applyChange (engine : Engine ε) {request : Request} {catalog : Catalog}
    {resolved : Resolved} (h : request.validate catalog = .ok resolved) :
    KeepsRegistry (fun _ => True) (applyChange engine resolved.method request) := by
  rw [applyChange_of_validate h]
  cases registryChange resolved.method request with
  | remove => exact fun _ hinv => ⟨hinv.erase _, trivial⟩
  | rename new =>
    exact (keepsRegistry_removeTable _).bind fun _ _ => keepsRegistry_loadTable engine new _
  | create temporary => exact keepsRegistry_loadTable engine _ temporary
  | link column foreign key => exact keepsRegistry_applyForeignKey engine _ column foreign key
  | unlink dropped => exact keepsRegistry_applyDrop engine _ dropped
  | refresh => exact keepsRegistry_refreshTable engine _ none

theorem isRegistry_submit (request : Request) (h : IsRegistry database.tables) :
    IsRegistry (outcome (submit engine request) database).2.tables := by
  have hends := ends_submit engine request database
  generalize outcome (submit engine request) database = ended at hends
  cases hends with
  | @changed _ _ _ _ state runs read changes =>
    exact (keepsRegistry_applyChange engine runs.valid (database.withEngine state) h).1
  | _ => exact h

/-! ### Opening and closing -/

theorem keepsRegistry_onEngine {α : Type} (operation : Action ε α) :
    KeepsRegistry (fun _ => True) (onEngine operation) := by
  intro database hinv
  rw [outcome_onEngine]
  refine ⟨hinv, ?_⟩
  cases (outcome operation database.engine).1 <;> trivial

theorem keepsRegistry_whenOpen {α : Type} (operation : Action ε α) :
    KeepsRegistry (fun _ => True) (whenOpen engine operation) := by
  refine keeps_get.bind fun database _ => ?_
  split
  · exact keepsRegistry_onEngine operation
  · exact keeps_throw trivial

theorem keepsRegistry_clear (database : Database ε) : KeepsRegistry (fun _ => True)
    (set { database with attached := false, tables := [] } : Action (Database ε) Unit) :=
  fun _ _ => ⟨isRegistry_nil, trivial⟩

theorem keepsRegistry_detach (engine : Engine ε) :
    KeepsRegistry (fun _ => True) (detach engine) := by
  refine keeps_get.bind fun database _ => ?_
  refine (keepsRegistry_clear database).bind fun _ _ => ?_
  split
  · exact (keepsRegistry_onEngine engine.close).tryCatch fun _ _ => keeps_pure trivial
  · exact keeps_pure trivial

theorem keepsRegistry_close (engine : Engine ε) : KeepsRegistry (fun _ => True) (close engine) := by
  refine keeps_get.bind fun database _ => ?_
  split
  · refine (keepsRegistry_clear database).bind fun _ _ => ?_
    exact keepsRegistry_onEngine engine.close
  · exact keeps_pure trivial

/-- The tables of different names, as they are described one after the other, make a registry. -/
theorem isRegistry_of_described {names : List String} {tables : List Table} (hnames : names.Nodup)
    (h : List.Forall₂ Table.IsDescribed names tables) : IsRegistry tables := by
  have hsame : tables.map Table.name = names := by
    clear hnames
    induction h with
    | nil => rfl
    | cons hdescribed _ ih => rw [List.map_cons, hdescribed.name, ih]
  refine ⟨hsame ▸ hnames, fun table htable => ?_⟩
  clear hnames hsame
  induction h with
  | nil => cases htable
  | cons hdescribed _ ih =>
    obtain rfl | htable := List.mem_cons.mp htable
    · exact hdescribed.consistent
    · exact ih htable

theorem exists_outcome_runForNames (engine : Engine ε) (method : Method) (text : String)
    (database : Database ε) : ∃ result state,
      outcome (runForNames engine method text) database = (result, database.withEngine state) := by
  rw [runForNames, outcome_bind, outcome_run]
  cases database.isOpen engine with
  | false => exact ⟨_, database.engine, rfl⟩
  | true =>
    rw [if_pos rfl]
    cases outcome (engine.execute text { expectsRows := true }) database.engine with
    | mk result state =>
      cases result with
      | error e => exact ⟨_, state, rfl⟩
      | ok answer =>
        dsimp only
        rw [outcome_bind, outcome_lift]
        cases Output.ofAnswer method none answer with
        | error e => exact ⟨_, state, rfl⟩
        | ok output => exact ⟨_, state, rfl⟩

/-- The names that the engine gives when it is asked for its tables. -/
def listing (engine : Engine ε) (database : Database ε) : Except Error (List String) :=
  (outcome (runForNames engine .showTables showTablesText) database).1

theorem isRegistry_loadRegistry (h : IsRegistry database.tables)
    (hlists : ∀ names, listing engine database = .ok names → names.Nodup) :
    IsRegistry (outcome (loadRegistry engine) database).2.tables := by
  obtain ⟨result, state, hlisted⟩ :=
    exists_outcome_runForNames engine .showTables showTablesText database
  rw [listing, hlisted] at hlists
  cases result with
  | error e =>
    rw [loadRegistry, outcome_bind_of_error hlisted]
    exact h
  | ok names =>
    rw [loadRegistry, outcome_bind_of_ok hlisted]
    have hrest : KeepsRegistry (fun _ => True) (do
        let tables ← names.mapM (describeTable engine)
        modify fun database => { database with tables }) := by
      refine (Keeps.mapM fun name _ => keepsRegistry_describeTable engine name).bind
        fun tables hread => ?_
      exact keeps_modify fun _ _ => isRegistry_of_described (hlists names rfl) hread
    exact (hrest (database.withEngine state) h).1

/-- The database at the moment when its connection is there and its registry is not. -/
def attachedTo (engine : Engine ε) (database : Database ε) : Database ε :=
  { database.withEngine (outcome engine.connect database.engine).2 with attached := true }

/-- Whether the engine, if it is asked for its tables when a connection is opened here, lists each
of them once. -/
def ListsOnce (engine : Engine ε) (database : Database ε) : Prop :=
  database.isOpen engine = false → (outcome engine.connect database.engine).1 = .ok () →
    ∀ names, listing engine (attachedTo engine database) = .ok names → names.Nodup

theorem isRegistry_connect (h : IsRegistry database.tables) (hlists : ListsOnce engine database) :
    IsRegistry (outcome (connect engine) database).2.tables := by
  rw [connect, outcome_bind_of_ok (outcome_get database)]
  cases hopen : database.isOpen engine with
  | true => exact h
  | false =>
    rw [if_neg Bool.false_ne_true]
    cases hconnect : (outcome engine.connect database.engine).1 with
    | error e =>
      rw [outcome_bind_of_error (by rw [outcome_onEngine, hconnect])]
      exact h
    | ok _ =>
      have hloaded :
          IsRegistry (outcome (loadRegistry engine) (attachedTo engine database)).2.tables :=
        isRegistry_loadRegistry h (hlists hopen hconnect)
      rw [outcome_bind_of_ok (by rw [outcome_onEngine, hconnect]),
        outcome_bind_of_ok (outcome_modify _ _), outcome_tryCatch, ← attachedTo]
      cases hload : outcome (loadRegistry engine) (attachedTo engine database) with
      | mk result after =>
        rw [hload] at hloaded
        cases result with
        | ok _ => exact hloaded
        | error e =>
          have hgiven : KeepsRegistry (fun _ => True)
              (do detach engine; throw e : Action (Database ε) Unit) :=
            (keepsRegistry_detach engine).bind fun _ _ => keeps_throw trivial
          exact (hgiven after hloaded).1

/-! ### Runs -/

/-- The databases that operations of any kind lead to, from one that has just been made: whatever
they answer and however they fail. -/
inductive Reachable (engine : Engine ε) : Database ε → Prop
  | new (name : String) (state : ε) : Reachable engine { name, engine := state }
  | connect {before} (reached : Reachable engine before) (lists : ListsOnce engine before) :
    Reachable engine (outcome (connect engine) before).2
  | close {before} (reached : Reachable engine before) :
    Reachable engine (outcome (close engine) before).2
  | reconnect {before} (reached : Reachable engine before)
    (lists : (outcome (Database.close engine) before).1 = .ok () →
      ListsOnce engine (outcome (Database.close engine) before).2) :
    Reachable engine (outcome (reconnect engine) before).2
  | commit {before} (reached : Reachable engine before) :
    Reachable engine (outcome (commit engine) before).2
  | rollback {before} (reached : Reachable engine before) :
    Reachable engine (outcome (rollback engine) before).2
  | submit {before} (reached : Reachable engine before) (request : Request) :
    Reachable engine (outcome (submit engine request) before).2

theorem isRegistry_reconnect (h : IsRegistry database.tables)
    (hlists : (outcome (close engine) database).1 = .ok () →
      ListsOnce engine (outcome (close engine) database).2) :
    IsRegistry (outcome (reconnect engine) database).2.tables := by
  have hclosed : IsRegistry (outcome (close engine) database).2.tables :=
    (keepsRegistry_close engine database h).1
  rw [reconnect, outcome_bind]
  cases hclose : outcome (close engine) database with
  | mk result after =>
    rw [hclose] at hclosed hlists
    cases result with
    | error e => exact hclosed
    | ok _ => exact isRegistry_connect hclosed (hlists rfl)

/-- In every database that a run can lead to, the tables have different names and are consistent. -/
theorem isRegistry_of_reachable (h : Reachable engine database) : IsRegistry database.tables := by
  induction h with
  | new name state => exact isRegistry_nil
  | connect reached lists ih => exact isRegistry_connect ih lists
  | close reached ih => exact (keepsRegistry_close engine _ ih).1
  | reconnect reached lists ih => exact isRegistry_reconnect ih lists
  | commit reached ih => exact (keepsRegistry_whenOpen engine.commit _ ih).1
  | rollback reached ih => exact (keepsRegistry_whenOpen engine.rollback _ ih).1
  | submit reached request ih => exact isRegistry_submit request ih

/-! ### A shop -/

/-- A script with users and with orders, which name a user. -/
def shopScript : Script :=
  ((({} : Script).listTables [.text "users", .text "orders"]).describe "users"
    [[.text "id", .text "int", .text "NO", .text "PRI", .null, .text ""]]).describe "orders"
    [[.text "user_id", .text "int", .text "NO", .text "MUL", .null, .text ""]]

theorem listsOnce_shop : ListsOnce Script.engine { name := "db", engine := shopScript } := by
  intro _ _ names hnames
  have hlisting :
      listing Script.engine (attachedTo Script.engine { name := "db", engine := shopScript }) =
        .ok ["users", "orders"] := by decide +kernel
  cases hlisting.symm.trans hnames
  decide

/-- The database after it has connected to the script. -/
def shop : Database Script :=
  (outcome (connect Script.engine) { name := "db", engine := shopScript }).2

/-- The request that the users of orders be users. -/
def orderKeyRequest : Request :=
  { method := "add foreign key", table := .byName "orders", fields := .column (.byName "user_id"),
    modifiers := { foreign := some (.byName "users.id") } }

/-- The shop with a foreign key, which is noted on the columns of two tables. -/
theorem isRegistry_of_reachable_shop :
    let linked := (outcome (submit Script.engine orderKeyRequest) shop).2
    Reachable Script.engine linked ∧ linked.tables.map (fun table => table.constraints.length) =
      [2, 2] ∧ IsRegistry linked.tables := by
  intro linked
  have hreachable : Reachable Script.engine linked :=
    .submit (.connect (.new "db" shopScript) listsOnce_shop) orderKeyRequest
  exact ⟨hreachable, by decide +kernel, isRegistry_of_reachable hreachable⟩

end Database

end SchemaQuery
