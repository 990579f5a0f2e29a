import SchemaQuery.Database.Operations
import SchemaQuery.Proofs.Database.Registry
import SchemaQuery.Proofs.Database.Submit

/-! The life of a connection.  Operations come in any order, each of them may fail, and the engine
may change between them as it likes.  The registry is there only as long as the connection is, a
connection that is not good for loading it is given up, and nothing that needs an open connection is
asked of a closed one. -/

namespace SchemaQuery

variable {ε α : Type}

/-! ### Engines that are watched, and engines that refuse -/

/-- Whether a call is one for open connections only. -/
def Call.needsOpen : Call → Bool
  | .execute _ _ | .commit | .rollback => true
  | .connect | .close => false

/-- The state of an engine together with the calls so far, each with whether the engine was open at
it. -/
structure Watched (ε : Type) where
  state : ε
  calls : List (Call × Bool) := []

/-- The calls that needed an open connection found one. -/
def Watched.Guarded (watched : Watched ε) : Prop :=
  ∀ call isOpen, (call, isOpen) ∈ watched.calls → call.needsOpen = true → isOpen = true

namespace Engine

/-- An operation of the engine, noted as a call. -/
def watching (engine : Engine ε) (call : Call) (operation : Action ε α) : Action (Watched ε) α := do
  let watched ← get
  let (result, state) := operation.run.run watched.state
  set { state, calls := watched.calls ++ [(call, engine.isOpen watched.state)] : Watched ε }
  result

/-- The engine with its calls noted, and with whether it was open at each of them. -/
def watched (engine : Engine ε) : Engine (Watched ε) where
  isOpen watched := engine.isOpen watched.state
  connect := engine.watching .connect engine.connect
  execute text options := engine.watching (.execute text options) (engine.execute text options)
  commit := engine.watching .commit engine.commit
  rollback := engine.watching .rollback engine.rollback
  close := engine.watching .close engine.close

/-- An operation of the engine, or the error that there is no connection. -/
def ifOpen (engine : Engine ε) (operation : Action ε α) : Action ε α := do
  if engine.isOpen (← get) then operation else throw .connectionNotOpen

/-- The engine that does nothing for a closed connection, and says so. -/
def refusing (engine : Engine ε) : Engine ε where
  isOpen := engine.isOpen
  connect := engine.connect
  execute text options := engine.ifOpen (engine.execute text options)
  commit := engine.ifOpen engine.commit
  rollback := engine.ifOpen engine.rollback
  close := engine.close

@[simp] theorem outcome_watching (engine : Engine ε) (call : Call) (operation : Action ε α)
    (watched : Watched ε) : outcome (engine.watching call operation) watched =
      ((outcome operation watched.state).1,
        ⟨(outcome operation watched.state).2, watched.calls ++
          [(call, engine.isOpen watched.state)]⟩) := by
  rw [watching, outcome_bind_of_ok (outcome_get watched)]
  rfl

end Engine

theorem Watched.Guarded.append {watched : Watched ε} (h : watched.Guarded) (state : ε) {call : Call}
    {isOpen : Bool} (hcall : call.needsOpen = true → isOpen = true) :
    Watched.Guarded ⟨state, watched.calls ++ [(call, isOpen)]⟩ := by
  intro other open' hmem hneeds
  obtain hmem | hmem := List.mem_append.mp hmem
  · exact h other open' hmem hneeds
  · cases List.mem_singleton.mp hmem
    exact hcall hneeds

namespace Database

variable {engine : Engine ε} {database after : Database ε}

/-! ### The operations of a connection -/

/-- The operations of a connection. -/
inductive Operation
  | connect
  | close
  | reconnect
  | commit
  | rollback
  | submit (request : Request)
  | fetch (table : String) (columns : List String) (distinct : Bool)

def Operation.run (engine : Engine ε) : Operation → Action (Database ε) Unit
  | .connect => Database.connect engine
  | .close => Database.close engine
  | .reconnect => Database.reconnect engine
  | .commit => Database.commit engine
  | .rollback => Database.rollback engine
  | .submit request => discard (Database.submit engine request)
  | .fetch table columns distinct => discard (Database.fetch engine table columns distinct)

/-- Whether an operation is one for open connections only. -/
def Operation.needsOpen : Operation → Bool
  | .commit | .rollback | .submit _ | .fetch _ _ _ => true
  | .connect | .close | .reconnect => false

/-- The databases that operations lead to, from one that has just been made.  Between two of them
the engine may come into any state. -/
inductive Lived (engine : Engine ε) : Database (Watched ε) → Prop
  | new (name : String) (state : ε) : Lived engine { name, engine := { state } }
  | after {before} (lived : Lived engine before) (operation : Operation) :
    Lived engine (outcome (operation.run engine.watched) before).2
  | drift {before} (lived : Lived engine before) (state : ε) :
    Lived engine (before.withEngine { before.engine with state })

/-! ### What statements and writes cannot break -/

/-- Properties that no statement for an open connection breaks, and no write to the registry. -/
structure Lasts (engine : Engine ε) (inv : Database ε → Prop) : Prop where
  execute : ∀ database text options, database.isOpen engine = true → inv database →
    inv (database.withEngine (outcome (engine.execute text options) database.engine).2)
  tables : ∀ database tables, inv database → inv (database.withTables tables)

/-- Whether a step keeps a property of the database, whatever it answers and however it fails. -/
abbrev Retains (inv : Database ε → Prop) (step : Action (Database ε) α) : Prop :=
  Keeps inv (fun _ => True) (fun _ => True) step

variable {inv : Database ε → Prop}

theorem retains_lift (result : Except Error α) :
    Retains inv (liftM result : Action (Database ε) α) :=
  keeps_lift (fun _ _ => trivial) fun _ _ => trivial

theorem retains_whenOpen {operation : Action ε α}
    (h : ∀ database, database.isOpen engine = true → inv database →
      inv (database.withEngine (outcome operation database.engine).2)) :
    Retains inv (whenOpen engine operation) := by
  intro database hinv
  rw [whenOpen, outcome_bind_of_ok (outcome_get database)]
  cases hopen : database.isOpen engine with
  | false => exact ⟨hinv, trivial⟩
  | true =>
    rw [if_pos rfl, outcome_onEngine]
    refine ⟨h database hopen hinv, ?_⟩
    cases (outcome operation database.engine).1 <;> trivial

theorem retains_requireTable (name : String) : Retains inv (requireTable name) := by
  refine keeps_get.bind fun database _ => ?_
  cases database.table? name with
  | some table => exact keeps_pure trivial
  | none => exact keeps_throw trivial

theorem retains_targetColumn (table : String) (reference : ColumnRef) :
    Retains inv (targetColumn table (.column reference)) := by
  refine (retains_requireTable table).bind fun known _ => ?_
  cases known.resolve? reference with
  | some column => exact keeps_pure trivial
  | none => exact keeps_throw trivial

namespace Lasts

theorem run (h : Lasts engine inv) (text : String) (options : ExecOptions) :
    Retains inv (run engine text options) :=
  retains_whenOpen fun database => h.execute database text options

theorem runForNames (h : Lasts engine inv) (method : Method) (text : String) :
    Retains inv (runForNames engine method text) := by
  refine (h.run text _).bind fun answer _ => ?_
  exact (retains_lift _).bind fun _ _ => keeps_pure trivial

theorem describeTable (h : Lasts engine inv) (name : String) :
    Retains inv (describeTable engine name) :=
  (h.runForNames .describe _).bind fun _ _ => retains_lift _

theorem loadRegistry (h : Lasts engine inv) : Retains inv (loadRegistry engine) := by
  refine (h.runForNames .showTables _).bind fun names _ => ?_
  refine (Keeps.mapM fun name _ => h.describeTable name).bind fun tables _ => ?_
  exact keeps_modify fun database => h.tables database tables

theorem replaceTable (h : Lasts engine inv) (table : Table) : Retains inv (replaceTable table) :=
  keeps_modify fun database => h.tables database _

theorem removeTable (h : Lasts engine inv) (name : String) : Retains inv (removeTable name) :=
  fun database hinv => ⟨h.tables database _ hinv, trivial⟩

theorem loadTable (h : Lasts engine inv) (name : String) (temporary : Bool) :
    Retains inv (loadTable engine name temporary) :=
  (h.describeTable name).bind fun _ _ => h.replaceTable _

theorem refreshTable (h : Lasts engine inv) (name : String) (dropped : Option Constraint) :
    Retains inv (refreshTable engine name dropped) := by
  refine keeps_get.bind fun database _ => ?_
  refine (h.describeTable name).bind fun table _ => ?_
  cases database.table? name <;> exact h.replaceTable _

theorem linkForeignKey (h : Lasts engine inv) (table column foreignTable foreignColumn : String)
    (name : Option String) :
    Retains inv (linkForeignKey table column foreignTable foreignColumn name) := by
  refine (retains_requireTable table).bind fun target _ => ?_
  refine (retains_requireTable foreignTable).bind fun foreign _ => ?_
  cases foreign.columnNamed? foreignColumn with
  | none => exact keeps_throw trivial
  | some referenced =>
    cases target.columnNamed? column with
    | none => exact keeps_throw trivial
    | some referencing =>
      refine (retains_lift _).bind fun linked _ => ?_
      exact (h.replaceTable _).bind fun _ _ => h.replaceTable _

theorem applyForeignKey (h : Lasts engine inv) (table : String) (column foreign : ColumnRef)
    (name : Option String) :
    Retains inv (applyForeignKey engine table (.column column) (some foreign) name) := by
  refine (retains_targetColumn table column).bind fun target _ => ?_
  refine (retains_lift _).bind fun ends _ => ?_
  refine (h.refreshTable table none).bind fun _ _ => ?_
  refine (h.refreshTable ends.1 none).bind fun _ _ => ?_
  exact h.linkForeignKey _ _ _ _ _

theorem applyDrop (h : Lasts engine inv) (table : String) (dropped : Constraint) :
    Retains inv (applyDrop engine table dropped) := by
  refine (h.refreshTable table _).bind fun _ _ => ?_
  cases dropped with
  | foreign key =>
    dsimp only
    split
    · refine keeps_get.bind fun database _ => ?_
      split
      · exact h.refreshTable _ _
      · exact keeps_pure trivial
    · exact keeps_pure trivial
  | _ => exact keeps_pure trivial

theorem applyChange (h : Lasts engine inv) {request : Request} {catalog : Catalog}
    {resolved : Resolved} (hvalid : request.validate catalog = .ok resolved) :
    Retains inv (applyChange engine resolved.method request) := by
  rw [applyChange_of_validate hvalid]
  cases registryChange resolved.method request with
  | remove => exact (h.removeTable _).bind fun _ _ => keeps_pure trivial
  | rename new => exact (h.removeTable _).bind fun _ _ => h.loadTable new _
  | create temporary => exact h.loadTable _ temporary
  | link column foreign key => exact h.applyForeignKey _ column foreign key
  | unlink dropped => exact h.applyDrop _ dropped
  | refresh => exact h.refreshTable _ none

theorem submit (h : Lasts engine inv) (request : Request) :
    Retains inv (submit engine request) := by
  refine keeps_get.bind fun database _ => ?_
  refine (keeps_lift (fun _ hok => hok) fun _ _ => trivial).bind fun resolved hvalid => ?_
  refine (retains_lift _).bind fun statement _ => ?_
  refine (h.run _ _).bind fun answer _ => ?_
  refine (retains_lift _).bind fun output _ => ?_
  dsimp only
  split
  · exact (h.applyChange hvalid).bind fun _ _ => keeps_pure trivial
  · exact keeps_pure trivial

theorem fetch (h : Lasts engine inv) (table : String) (columns : List String) (distinct : Bool) :
    Retains inv (fetch engine table columns distinct) :=
  (h.submit _).bind fun _ _ => keeps_pure trivial

end Lasts

/-! ### Opening and closing -/

/-- The database without connection and registry, its engine in a state. -/
def emptied (database : Database ε) (state : ε) : Database ε :=
  { database with attached := false, tables := [], engine := state }

theorem outcome_detach (h : database.attached = true) : outcome (detach engine) database =
    (.ok (), database.emptied (outcome engine.close database.engine).2) := by
  rw [detach, outcome_bind_of_ok (outcome_get database), outcome_bind_of_ok (outcome_set _ _), h,
    if_pos rfl, outcome_tryCatch, outcome_onEngine]
  cases hclose : outcome engine.close database.engine with
  | mk result state => cases result <;> rfl

theorem outcome_close_of_attached (h : database.attached = true) : outcome (close engine) database =
    ((outcome engine.close database.engine).1,
      database.emptied (outcome engine.close database.engine).2) := by
  rw [close, outcome_bind_of_ok (outcome_get database), h, if_pos rfl,
    outcome_bind_of_ok (outcome_set _ _), outcome_onEngine]
  rfl

theorem outcome_close_of_not_attached (h : database.attached = false) :
    outcome (close engine) database = (.ok (), database) := by
  rw [close, outcome_bind_of_ok (outcome_get database), h]
  rfl

theorem outcome_connect_of_isOpen (h : database.isOpen engine = true) :
    outcome (connect engine) database = (.ok (), database) := by
  rw [connect, outcome_bind_of_ok (outcome_get database), h]
  rfl

theorem outcome_connect_of_error {e : Error} (h : database.isOpen engine = false)
    (hconnect : (outcome engine.connect database.engine).1 = .error e) :
    outcome (connect engine) database =
      (.error e, database.withEngine (outcome engine.connect database.engine).2) := by
  rw [connect, outcome_bind_of_ok (outcome_get database), h, if_neg Bool.false_ne_true,
    outcome_bind_of_error (by rw [outcome_onEngine, hconnect])]

theorem lasts_attached (engine : Engine ε) (attached : Bool) :
    Lasts engine fun database => database.attached = attached :=
  ⟨fun _ _ _ _ h => h, fun _ _ h => h⟩

/-- A new connection is good if the registry can be loaded over it, and given up if not. -/
theorem outcome_connect_of_ok (h : database.isOpen engine = false)
    (hconnect : (outcome engine.connect database.engine).1 = .ok ()) :
    outcome (connect engine) database =
      match outcome (loadRegistry engine) (attachedTo engine database) with
      | (.ok (), loaded) => (.ok (), loaded)
      | (.error e, loaded) =>
        (.error e, loaded.emptied (outcome engine.close loaded.engine).2) := by
  rw [connect, outcome_bind_of_ok (outcome_get database), h, if_neg Bool.false_ne_true,
    outcome_bind_of_ok (by rw [outcome_onEngine, hconnect]),
    outcome_bind_of_ok (outcome_modify _ _),
    outcome_tryCatch, ← attachedTo]
  have hattached := (lasts_attached engine true).loadRegistry (attachedTo engine database) rfl
  cases hload : outcome (loadRegistry engine) (attachedTo engine database) with
  | mk result loaded =>
    rw [hload] at hattached
    cases result with
    | ok _ => rfl
    | error e => exact outcome_bind_of_ok (outcome_detach hattached.1)

/-- A connection that is opened has its registry loaded. -/
theorem loaded_of_connect (h : database.isOpen engine = false)
    (hrun : outcome (connect engine) database = (.ok (), after)) :
    outcome (loadRegistry engine) (attachedTo engine database) = (.ok (), after) := by
  cases hconnect : (outcome engine.connect database.engine).1 with
  | error e =>
    rw [outcome_connect_of_error h hconnect] at hrun
    cases hrun
  | ok _ =>
    rw [outcome_connect_of_ok h hconnect] at hrun
    cases hload : outcome (loadRegistry engine) (attachedTo engine database) with
    | mk result loaded =>
      rw [hload] at hrun
      cases result with
      | ok _ => exact hrun
      | error e => cases hrun

/-! ### The registry goes with the connection -/

/-- Whether a database without connection has an empty registry. -/
def EmptyUnattached (database : Database ε) : Prop :=
  database.attached = false → database.tables = []

theorem submit_of_closed (h : database.isOpen engine = false) (request : Request) :
    outcome (submit engine request) database = (.error .connectionNotOpen, database) := by
  have hcatalog : (database.catalog engine).isOpen = false := h
  rw [submit, outcome_bind_of_ok (outcome_get database), Request.validate,
    Request.resolve, hcatalog]
  rfl

theorem fetch_of_closed (h : database.isOpen engine = false) (table : String)
    (columns : List String) (distinct : Bool) :
    outcome (fetch engine table columns distinct) database =
      (.error .connectionNotOpen, database) :=
  outcome_bind_of_error (submit_of_closed h _)

theorem whenOpen_of_closed (h : database.isOpen engine = false) (operation : Action ε α) :
    outcome (whenOpen engine operation) database = (.error .connectionNotOpen, database) := by
  rw [whenOpen, outcome_bind_of_ok (outcome_get database), h]
  rfl

/-- An operation for open connections does nothing without one, and says so. -/
theorem run_of_closed (h : database.isOpen engine = false) {operation : Operation}
    (hneeds : operation.needsOpen = true) :
    outcome (operation.run engine) database = (.error .connectionNotOpen, database) := by
  cases operation with
  | commit | rollback => exact whenOpen_of_closed h _
  | submit request => exact outcome_bind_of_error (submit_of_closed h request)
  | fetch table columns distinct =>
    exact outcome_bind_of_error (fetch_of_closed h table columns distinct)
  | connect | close | reconnect => cases hneeds

theorem attached_of_isOpen (h : database.isOpen engine = true) : database.attached = true :=
  (Bool.and_eq_true_iff.mp h).1

/-- An operation for open connections keeps what its statements and writes cannot break, if a commit
and a rollback cannot break it either. -/
theorem Lasts.operation (h : Lasts engine inv)
    (hcommit : ∀ database, database.isOpen engine = true → inv database →
      inv (database.withEngine (outcome engine.commit database.engine).2))
    (hrollback : ∀ database, database.isOpen engine = true → inv database →
      inv (database.withEngine (outcome engine.rollback database.engine).2))
    {operation : Operation} (hneeds : operation.needsOpen = true) :
    Retains inv (operation.run engine) := by
  cases operation with
  | commit => exact retains_whenOpen hcommit
  | rollback => exact retains_whenOpen hrollback
  | submit request => exact (h.submit request).bind fun _ _ => keeps_pure trivial
  | fetch table columns distinct =>
    exact (h.fetch table columns distinct).bind fun _ _ => keeps_pure trivial
  | connect | close | reconnect => cases hneeds

theorem preserves_reconnect
    (hclose : ∀ database, inv database → inv (outcome (close engine) database).2)
    (hconnect : ∀ database, inv database → inv (outcome (connect engine) database).2)
    (h : inv database) :
    inv (outcome (reconnect engine) database).2 := by
  have hclosed := hclose database h
  rw [reconnect, outcome_bind]
  cases hout : outcome (close engine) database with
  | mk result after =>
    rw [hout] at hclosed
    cases result with
    | ok _ => exact hconnect after hclosed
    | error e => exact hclosed

/-- Every operation keeps a property that opening and closing keep and the operations for open
connections. -/
theorem preserves_run (inv : Database ε → Prop)
    (hopen : ∀ operation : Operation, operation.needsOpen = true → ∀ database, inv database →
      inv (outcome (operation.run engine) database).2)
    (hclose : ∀ database, inv database → inv (outcome (close engine) database).2)
    (hconnect : ∀ database, inv database → inv (outcome (connect engine) database).2)
    (operation : Operation) (h : inv database) :
    inv (outcome (operation.run engine) database).2 := by
  cases operation with
  | connect => exact hconnect database h
  | close => exact hclose database h
  | reconnect => exact preserves_reconnect hclose hconnect h
  | commit | rollback | submit | fetch => exact hopen _ rfl database h

theorem emptied_close (h : EmptyUnattached database) :
    (outcome (close engine) database).2.attached = false ∧
      (outcome (close engine) database).2.tables = [] := by
  cases hattached : database.attached with
  | false =>
    rw [outcome_close_of_not_attached hattached]
    exact ⟨hattached, h hattached⟩
  | true =>
    rw [outcome_close_of_attached hattached]
    exact ⟨rfl, rfl⟩

theorem emptyUnattached_connect (h : EmptyUnattached database) :
    EmptyUnattached (outcome (connect engine) database).2 := by
  cases hopen : database.isOpen engine with
  | true =>
    rw [outcome_connect_of_isOpen hopen]
    exact h
  | false =>
    cases hconnect : (outcome engine.connect database.engine).1 with
    | error e =>
      rw [outcome_connect_of_error hopen hconnect]
      exact h
    | ok _ =>
      have hattached := (lasts_attached engine true).loadRegistry (attachedTo engine database) rfl
      rw [outcome_connect_of_ok hopen hconnect]
      cases hload : outcome (loadRegistry engine) (attachedTo engine database) with
      | mk result loaded =>
        rw [hload] at hattached
        cases result with
        | ok _ => exact fun hnot => absurd hattached.1 (Bool.eq_false_iff.mp hnot)
        | error e => exact fun _ => rfl

/-- The registry is there only as long as the connection is. -/
theorem emptyUnattached_run (operation : Operation) (h : EmptyUnattached database) :
    EmptyUnattached (outcome (operation.run engine) database).2 := by
  refine preserves_run EmptyUnattached ?_ (fun _ h _ => (emptied_close h).2)
    (fun _ => emptyUnattached_connect) operation h
  intro operation hneeds database h
  cases hopen : database.isOpen engine with
  | false =>
    rw [run_of_closed hopen hneeds]
    exact h
  | true =>
    have hkept := (lasts_attached engine true).operation (fun _ _ h => h)
      (fun _ _ h => h) hneeds database (attached_of_isOpen hopen)
    exact fun hnot => absurd hkept.1 (Bool.eq_false_iff.mp hnot)

/-! ### What reaches the engine -/

theorem guarded_watching {watched : Watched ε} (h : watched.Guarded) {call : Call}
    (operation : Action ε α) (hcall : call.needsOpen = true → engine.isOpen watched.state = true) :
    (outcome (engine.watching call operation) watched).2.Guarded := by
  rw [Engine.outcome_watching]
  exact h.append _ hcall

theorem isOpen_of_isOpen_watched {database : Database (Watched ε)}
    (h : database.isOpen engine.watched = true) : engine.isOpen database.engine.state = true :=
  (Bool.and_eq_true_iff.mp h).2

theorem lasts_guarded (engine : Engine ε) :
    Lasts engine.watched fun database => database.engine.Guarded :=
  ⟨fun _ _ _ hopen h => guarded_watching h _ fun _ => isOpen_of_isOpen_watched hopen,
    fun _ _ h => h⟩

theorem guarded_close {database : Database (Watched ε)} (h : database.engine.Guarded) :
    (outcome (close engine.watched) database).2.engine.Guarded := by
  cases hattached : database.attached with
  | false =>
    rw [outcome_close_of_not_attached hattached]
    exact h
  | true =>
    rw [outcome_close_of_attached hattached]
    exact guarded_watching h _ nofun

theorem guarded_connect {database : Database (Watched ε)} (h : database.engine.Guarded) :
    (outcome (connect engine.watched) database).2.engine.Guarded := by
  have hconnected : (outcome engine.watched.connect database.engine).2.Guarded :=
    guarded_watching h _ nofun
  cases hopen : database.isOpen engine.watched with
  | true =>
    rw [outcome_connect_of_isOpen hopen]
    exact h
  | false =>
    cases hconnect : (outcome engine.watched.connect database.engine).1 with
    | error e =>
      rw [outcome_connect_of_error hopen hconnect]
      exact hconnected
    | ok _ =>
      have hloaded :=
        (lasts_guarded engine).loadRegistry (attachedTo engine.watched database) hconnected
      rw [outcome_connect_of_ok hopen hconnect]
      cases hload : outcome (loadRegistry engine.watched) (attachedTo engine.watched database) with
      | mk result loaded =>
        rw [hload] at hloaded
        cases result with
        | ok _ => exact hloaded.1
        | error e => exact guarded_watching hloaded.1 _ nofun

/-- No operation asks a closed connection for what needs an open one. -/
theorem guarded_run {database : Database (Watched ε)} (operation : Operation)
    (h : database.engine.Guarded) :
    (outcome (operation.run engine.watched) database).2.engine.Guarded := by
  refine preserves_run (fun database : Database (Watched ε) => database.engine.Guarded) ?_
    (fun _ => guarded_close) (fun _ => guarded_connect) operation h
  intro operation hneeds database h
  have hoperation := (lasts_guarded engine).operation
    (fun _ hopen h => guarded_watching h _ fun _ => isOpen_of_isOpen_watched hopen)
    (fun _ hopen h => guarded_watching h _ fun _ => isOpen_of_isOpen_watched hopen) hneeds
  exact (hoperation database h).1

/-! ### Refusing instead -/

theorem whenOpen_refusing (operation : Action ε α) :
    whenOpen engine.refusing (engine.ifOpen operation) = whenOpen engine operation := by
  refine eq_of_outcome_eq fun database => ?_
  rw [whenOpen, whenOpen, outcome_bind_of_ok (outcome_get database),
    outcome_bind_of_ok (outcome_get database)]
  cases hopen : database.isOpen engine with
  | false =>
    rw [show database.isOpen engine.refusing = false from hopen]
    rfl
  | true =>
    have hengine : engine.isOpen database.engine = true := (Bool.and_eq_true_iff.mp hopen).2
    have hguard : outcome (engine.ifOpen operation) database.engine =
        outcome operation database.engine := by
      rw [Engine.ifOpen, outcome_bind_of_ok (outcome_get _), hengine, if_pos rfl]
    rw [show database.isOpen engine.refusing = true from hopen, if_pos rfl, if_pos rfl,
      outcome_onEngine, outcome_onEngine, hguard]

theorem run_refusing (engine : Engine ε) : run engine.refusing = run engine :=
  funext fun _ => funext fun _ => whenOpen_refusing _

theorem describeTable_refusing (engine : Engine ε) :
    describeTable engine.refusing = describeTable engine := by
  funext name
  simp only [describeTable, runForNames, run_refusing]

theorem refreshTable_refusing (engine : Engine ε) :
    refreshTable engine.refusing = refreshTable engine := by
  funext name dropped
  simp only [refreshTable, describeTable_refusing]

theorem loadTable_refusing (engine : Engine ε) : loadTable engine.refusing = loadTable engine := by
  funext name temporary
  simp only [loadTable, describeTable_refusing]

theorem loadRegistry_refusing (engine : Engine ε) :
    loadRegistry engine.refusing = loadRegistry engine := by
  simp only [loadRegistry, runForNames, run_refusing, describeTable_refusing]

theorem connect_refusing (engine : Engine ε) : connect engine.refusing = connect engine := by
  simp only [connect, loadRegistry_refusing]
  rfl

theorem submit_refusing (engine : Engine ε) : submit engine.refusing = submit engine := by
  funext request
  simp only [submit, run_refusing, applyChange, applyForeignKey, applyDrop, refreshTable_refusing,
    loadTable_refusing]
  rfl

/-- An operation is the same with an engine that does nothing for a closed connection. -/
theorem run_operation_refusing (operation : Operation) :
    operation.run engine.refusing = operation.run engine := by
  cases operation with
  | connect => exact connect_refusing engine
  | close => rfl
  | reconnect =>
    change reconnect engine.refusing = reconnect engine
    rw [reconnect, connect_refusing]
    rfl
  | commit | rollback => exact whenOpen_refusing _
  | submit request => simp only [Operation.run, submit_refusing]
  | fetch table columns distinct => simp only [Operation.run, fetch, query, submit_refusing]

/-! ### Databases that have lived -/

/-- Whether an attempt to connect has ended without connection and registry, and has closed the new
connection once, after nothing but statements. -/
structure GivenUp (before after : Database (Watched ε)) : Prop where
  attached : after.attached = false
  tables : after.tables = []
  calls : ∃ statements, after.engine.calls.map Prod.fst =
      before.engine.calls.map Prod.fst ++ .connect :: statements ++ [.close] ∧
    ∀ call ∈ statements, call.statement?.isSome = true

/-- What holds of a database at any moment of its life, and of what is asked of it next. -/
structure Lifecycle (engine : Engine ε) (database : Database (Watched ε)) : Prop where
  empty : database.attached = false → database.tables = []
  guarded : database.engine.Guarded
  keepsOpen : database.isOpen engine.watched = true →
    outcome (connect engine.watched) database = (.ok (), database)
  givesUp : ∀ e loaded, database.isOpen engine.watched = false →
    (outcome engine.connect database.engine.state).1 = .ok () →
    outcome (loadRegistry engine.watched) (attachedTo engine.watched database) =
      (.error e, loaded) →
    ∃ after, outcome (connect engine.watched) database = (.error e, after) ∧ GivenUp database after
  closes : ∀ result after, outcome (close engine.watched) database = (result, after) →
    after.attached = false ∧ after.tables = []
  refuses : database.isOpen engine.watched = false →
    ∀ operation : Operation, operation.needsOpen = true →
    outcome (operation.run engine.watched) database = (.error .connectionNotOpen, database)
  refusesWithin : ∀ operation : Operation,
    outcome (operation.run engine.watched.refusing) database =
      outcome (operation.run engine.watched) database

/-- Loading a registry sends nothing but statements. -/
theorem lasts_statements (engine : Engine ε) (start : List Call) :
    Lasts engine.watched fun database => ∃ statements,
      database.engine.calls.map Prod.fst = start ++ statements ∧
        ∀ call ∈ statements, call.statement?.isSome = true := by
  refine ⟨fun database text options _ ⟨statements, hcalls, hall⟩ => ?_, fun _ _ h => h⟩
  refine ⟨statements ++ [.execute text options], ?_, ?_⟩
  · rw [engine_withEngine, Engine.watched, Engine.outcome_watching, List.map_append, hcalls,
      List.append_assoc]
    rfl
  · rw [List.forall_mem_append]
    exact ⟨hall, by simp [Call.statement?]⟩

theorem emptyUnattached_of_lived {database : Database (Watched ε)} (h : Lived engine database) :
    EmptyUnattached database := by
  induction h with
  | new => exact fun _ => rfl
  | after lived operation ih => exact emptyUnattached_run operation ih
  | drift lived state ih => exact ih

theorem guarded_of_lived {database : Database (Watched ε)} (h : Lived engine database) :
    database.engine.Guarded := by
  induction h with
  | new => exact nofun
  | after lived operation ih => exact guarded_run operation ih
  | drift lived state ih => exact ih

/-- A connection whose registry cannot be loaded is closed once, after nothing but statements. -/
theorem givesUp_connect {database loaded : Database (Watched ε)} {e : Error}
    (hopen : database.isOpen engine.watched = false)
    (hconnect : (outcome engine.connect database.engine.state).1 = .ok ())
    (hload : outcome (loadRegistry engine.watched) (attachedTo engine.watched database) =
      (.error e, loaded)) :
    ∃ after, outcome (connect engine.watched) database = (.error e, after) ∧
      GivenUp database after := by
  have hconnected : (outcome engine.watched.connect database.engine).1 = .ok () := by
    rw [Engine.watched, Engine.outcome_watching, hconnect]
  have hstart : (attachedTo engine.watched database).engine.calls.map Prod.fst =
      (database.engine.calls.map Prod.fst ++ [.connect]) ++ [] := by
    rw [attachedTo, engine_withEngine, Engine.watched, Engine.outcome_watching]
    simp
  have hnone : ∀ call ∈ ([] : List Call), call.statement?.isSome = true := by simp
  have hloaded := ((lasts_statements engine _).loadRegistry _ ⟨[], hstart, hnone⟩).1
  rw [hload] at hloaded
  obtain ⟨statements, hcalls, hall⟩ := hloaded
  have hrun := outcome_connect_of_ok hopen hconnected
  rw [hload] at hrun
  refine ⟨_, hrun, rfl, rfl, statements, ?_, hall⟩
  rw [emptied, Engine.watched, Engine.outcome_watching, List.map_append, hcalls]
  simp

/-- At any moment of its life a database has a registry only with a connection, no statement, commit
or rollback has reached a closed engine, and none ever will. -/
theorem lifecycle_of_lived {database : Database (Watched ε)} (h : Lived engine database) :
    Lifecycle engine database where
  empty := emptyUnattached_of_lived h
  guarded := guarded_of_lived h
  keepsOpen := outcome_connect_of_isOpen
  givesUp _ _ := givesUp_connect
  closes result after hclose := by
    have hclosed : (outcome (close engine.watched) database).2.attached = false ∧
        (outcome (close engine.watched) database).2.tables = [] :=
          emptied_close (emptyUnattached_of_lived h)
    rwa [hclose] at hclosed
  refuses hopen _ := run_of_closed hopen
  refusesWithin operation := by rw [run_operation_refusing]

/-- The shop, connected to an engine that is watched. -/
def watchedShop : Database (Watched Script) :=
  (outcome (connect Script.engine.watched) { name := "db", engine := { state := shopScript } }).2

/-- The shop after it has lost its connection, with an engine that cannot describe its orders any
more. -/
def lostShop : Database (Watched Script) :=
  watchedShop.withEngine
    { watchedShop.engine with state := shopScript.answer "describe `orders`;" (.error "gone") }

/-- The shop that has lost its connection keeps its registry, until another connection is given
up. -/
theorem lifecycle_of_lived_lostShop :
    let loading : List Call :=
      .execute showTablesText { expectsRows := true } :: ["users", "orders"].map describeCall
    let ended := outcome (connect Script.engine.watched) lostShop
    Lived Script.engine lostShop ∧ lostShop.attached = true ∧ lostShop.tables.length = 2 ∧
      lostShop.isOpen Script.engine.watched = false ∧ Lifecycle Script.engine lostShop ∧
      ended.1 = .error (.executor "gone") ∧ ended.2.tables = [] ∧
      ended.2.engine.calls.map Prod.fst = .connect :: loading ++ .connect :: loading ++
        [.close] := by
  intro loading ended
  have hlived : Lived Script.engine lostShop := .drift (.after (.new "db" shopScript) .connect) _
  refine ⟨hlived, ?_, ?_, ?_, lifecycle_of_lived hlived, ?_, ?_, ?_⟩ <;> decide +kernel

end Database

end SchemaQuery
