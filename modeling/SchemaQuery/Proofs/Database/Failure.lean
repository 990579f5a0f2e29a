import SchemaQuery.Engine.Scripted
import SchemaQuery.Proofs.Database.Ending

/-! What a submission that fails leaves in the registry.  Up to the answer of its statement a
request writes nothing.  After it, a rename gives up the old snapshot before it has the new one, and
the changes of foreign keys put in one snapshot after the other, so that a description that fails
comes too late. -/

namespace SchemaQuery

variable {tables : List Table} {table other : Table}

theorem findTable?_putTable_eq_iff :
    (∀ name, findTable? (putTable tables table) name = findTable? tables name) ↔
      findTable? tables table.name = some table := by
  constructor
  · intro h
    rw [← h, findTable?_putTable, if_pos rfl]
  · intro h name
    rw [findTable?_putTable]
    split
    case isTrue hn => rw [← hn, h]
    case isFalse => rfl

/-- Two snapshots of different names. -/
theorem findTable?_putTable_putTable_eq_iff (hne : other.name ≠ table.name) :
    (∀ name, findTable? (putTable (putTable tables table) other) name = findTable? tables name) ↔
      findTable? tables table.name = some table ∧ findTable? tables other.name = some other := by
  constructor
  · intro h
    constructor
    · rw [← h, findTable?_putTable_of_ne hne, findTable?_putTable, if_pos rfl]
    · rw [← h, findTable?_putTable, if_pos rfl]
  · rintro ⟨ht, ho⟩ name
    have hfirst := findTable?_putTable_eq_iff.mpr ht
    rw [findTable?_putTable, hfirst]
    split
    case isTrue hn => rw [← hn, ho]
    case isFalse => rfl

namespace Database

variable {ε : Type} {engine : Engine ε} {request : Request} {before database after : Database ε}
  {e : Error}

/-! ### Failures before and after the answer -/

/-- Whether the statement of a valid request that changes the schema has been answered, the answer
read, and the engine left in a state. -/
structure Answered (engine : Engine ε) (request : Request) (before : Database ε)
    (resolved : Resolved) (state : ε) : Prop where
  changes : resolved.method.changesSchema = true
  runs : ∃ text answer output, Runs engine request before resolved text (.ok answer) state ∧
    Output.ofAnswer resolved.method request.modifiers.maxRows answer = .ok output

theorem submit_error_cases (h : outcome (submit engine request) before = (.error e, after)) :
    (after.tables = before.tables ∧ ∀ resolved state,
      ¬Answered engine request before resolved state) ∨
    ∃ resolved state, Answered engine request before resolved state ∧
      (∀ other state', Answered engine request before other state' →
        other = resolved ∧ state' = state) ∧
      outcome (applyChange engine resolved.method request) (before.withEngine state) =
        (.error e, after) := by
  have hends := ends_submit engine request before
  generalize outcome (submit engine request) before = ended at hends h
  cases hends with
  | rejected invalid =>
    cases h
    refine .inl ⟨rfl, fun resolved state ⟨_, text, answer, output, hruns, _⟩ => ?_⟩
    cases invalid.symm.trans hruns.valid
  | unanswered runs =>
    cases h
    refine .inl ⟨rfl, fun resolved state ⟨_, text, answer, output, hruns, _⟩ => ?_⟩
    cases (runs.unique hruns).2.2.1
  | unread runs unread =>
    cases h
    refine .inl ⟨rfl, fun resolved state ⟨_, text, answer, output, hruns, hread⟩ => ?_⟩
    obtain ⟨rfl, -, hanswer, -⟩ := runs.unique hruns
    cases hanswer
    cases unread.symm.trans hread
  | kept => cases h
  | @changed resolved text answer output state runs read changes =>
    obtain ⟨he, rfl⟩ := Prod.mk.inj h
    refine .inr ⟨resolved, state, ⟨changes, text, answer, output, runs, read⟩, ?_, ?_⟩
    · rintro other state' ⟨-, text', answer', output', hruns, -⟩
      obtain ⟨rfl, -, -, rfl⟩ := runs.unique hruns
      exact ⟨rfl, rfl⟩
    · exact Prod.ext (map_eq_error_iff.mp he) rfl

/-! ### What a failing change has written -/

/-- Whether a change of the schema that fails leaves every look-up as it was.  A rename has taken
the old snapshot out.  A change of a foreign key has put in a new snapshot of the table if it could
be described, and adding one also that of the other table; these make no difference only if they
equal the former ones. -/
def KeepsTables (engine : Engine ε) (name : String) (database : Database ε) : RegistryChange → Prop
  | .rename _ =>
    findTable? (database.tables.eraseP fun table => table.name == name) name = database.table? name
  | .link _ foreign _ =>
    ∀ table mid, outcome (describeTable engine name) database = (.ok table, mid) →
      database.table? name = some (renewed (database.table? name) none table) ∧
      ∀ foreignTable foreignColumn other, foreign.splitQualified =
        .ok (foreignTable, foreignColumn) →
        (outcome (describeTable engine foreignTable) mid).1 = .ok other →
        database.table? foreignTable = some (renewed (database.table? foreignTable) none other)
  | .unlink dropped =>
    ∀ table, (outcome (describeTable engine name) database).1 = .ok table →
      database.table? name = some (renewed (database.table? name) (some dropped) table)
  | _ => True

theorem tables_of_refreshTable_error {name : String} {dropped : Option Constraint}
    (h : outcome (refreshTable engine name dropped) database = (.error e, after)) :
    after.tables = database.tables := by
  obtain ⟨result, state, hd, -⟩ := exists_outcome_describeTable engine name database
  rw [outcome_refreshTable, hd] at h
  cases result with
  | ok table => cases h
  | error e' =>
    cases h
    rfl

theorem tables_of_loadTable_error {name : String} {temporary : Bool}
    (h : outcome (loadTable engine name temporary) database = (.error e, after)) :
    after.tables = database.tables := by
  obtain ⟨result, state, hd, -⟩ := exists_outcome_describeTable engine name database
  rw [outcome_loadTable, hd] at h
  cases result with
  | ok table => cases h
  | error e' =>
    cases h
    rfl

theorem keeps_of_rename_error {name new : String}
    (h : outcome ((RegistryChange.rename new).apply engine name) database = (.error e, after)) :
    (∀ n, after.table? n = database.table? n) ↔ KeepsTables engine name database (.rename new) := by
  have hload := (outcome_bind_of_ok (outcome_removeTable name)).symm.trans h
  have htables := tables_of_loadTable_error hload
  have hkept (n : String) : after.table? n =
      findTable? (database.tables.eraseP fun table => table.name == name) n := by
    rw [table?, htables]
    rfl
  constructor
  · intro hall
    rw [KeepsTables, ← hkept, hall]
  · intro hk n
    rw [hkept]
    by_cases hn : name = n
    · rw [← hn]
      exact hk
    · exact findTable?_eraseP_of_ne hn

/-- A refresh of a table that can be described. -/
theorem outcome_refreshTable_of_ok {name : String} {dropped : Option Constraint} {table : Table}
    {state : ε}
    (h : outcome (describeTable engine name) database = (.ok table, database.withEngine state)) :
    outcome (refreshTable engine name dropped) database =
      (.ok (), (database.withEngine state).withTables
        (putTable database.tables (renewed (database.table? name) dropped table))) := by
  rw [outcome_refreshTable, h]
  rfl

theorem outcome_refreshTable_of_error {name : String} {dropped : Option Constraint}
    (h : outcome (describeTable engine name) database = (.error e, after)) :
    outcome (refreshTable engine name dropped) database = (.error e, after) := by
  rw [outcome_refreshTable, h]

/-- A failing change of a new key fails at the first description, at the second with one new
snapshot in, or at the linking with both in. -/
theorem keeps_of_link_error {name foreignTable foreignColumn : String} {column foreign : ColumnRef}
    {key : Option String} {table : Table} {target : Column} (ht : database.table? name = some table)
    (hr : table.resolve column = .ok target)
    (hs : foreign.splitQualified = .ok (foreignTable, foreignColumn)) (hne : foreignTable ≠ name)
    (h : outcome ((RegistryChange.link column foreign key).apply engine name) database =
      (.error e, after)) :
    (∀ n, after.table? n = database.table? n) ↔
      KeepsTables engine name database (.link column foreign key) := by
  rw [RegistryChange.apply, outcome_applyForeignKey ht hr hs] at h
  obtain ⟨result, state, hd, hname⟩ := exists_outcome_describeTable engine name database
  cases result with
  | error e' =>
    rw [outcome_bind_of_error (outcome_refreshTable_of_error hd)] at h
    cases h
    refine ⟨fun _ table mid hok => ?_, fun _ n => rfl⟩
    cases hd.symm.trans hok
  | ok described =>
    rw [outcome_bind_of_ok (outcome_refreshTable_of_ok hd)] at h
    obtain ⟨result', state', hd', hname'⟩ :=
      exists_outcome_describeTable engine foreignTable (database.withEngine state)
    generalize hfirst : renewed (database.table? name) none described = first at h
    generalize hmid : (database.withEngine state).withTables (putTable database.tables first) =
      mid at h
    have hfirstName : first.name = name := by rw [← hfirst, name_renewed, hname described rfl]
    have htables : mid.tables = putTable database.tables first := by rw [← hmid, tables_withTables]
    -- The second description does not see what the first has written.
    have hsecond : outcome (describeTable engine foreignTable) mid =
        (result', mid.withEngine state') := by
      rw [← hmid, outcome_describeTable_withTables, hd']
      rfl
    have hformer : mid.table? foreignTable = database.table? foreignTable := by
      rw [table?, htables]
      exact findTable?_putTable_of_ne (by rw [hfirstName]; exact hne.symm)
    have hkeeps : KeepsTables engine name database (.link column foreign key) ↔
        database.table? name = some first ∧ ∀ other, result' = .ok other →
          database.table? foreignTable =
            some (renewed (database.table? foreignTable) none other) := by
      constructor
      · intro hk
        obtain ⟨hown, hforeign⟩ := hk described _ hd
        exact ⟨by rw [← hfirst, ← hown], fun other ho => hforeign _ _ other hs (by rw [hd', ho])⟩
      · rintro ⟨hown, hforeign⟩ table' mid hok
        cases hd.symm.trans hok
        refine ⟨by rw [hfirst, hown], fun foreignTable' foreignColumn' other hs' ho => ?_⟩
        cases hs.symm.trans hs'
        rw [hd'] at ho
        exact hforeign other ho
    rw [hkeeps]
    cases result' with
    | error e' =>
      rw [outcome_bind_of_error (outcome_refreshTable_of_error hsecond)] at h
      cases h
      have hkept (n : String) : (mid.withEngine state').table? n =
          findTable? (putTable database.tables first) n := by
        rw [table?_withEngine, table?, htables]
      simp only [hkept]
      refine findTable?_putTable_eq_iff.trans ?_
      rw [hfirstName]
      exact ⟨fun hown => ⟨hown, fun _ ho => (nomatch ho)⟩, fun hk => hk.1⟩
    | ok described' =>
      rw [outcome_bind_of_ok (outcome_refreshTable_of_ok hsecond), hformer, htables] at h
      generalize hother : renewed (database.table? foreignTable) none described' = other at h
      have hotherName : other.name = foreignTable := by
        rw [← hother, name_renewed, hname' described' rfl]
      obtain ⟨e', ho⟩ | ⟨_, _, _, _, _, _, _, _, _, _, ho⟩ := outcome_linkForeignKey
        ((mid.withEngine state').withTables (putTable (putTable database.tables first) other)) name
        target.name foreignTable foreignColumn key
      · cases ho.symm.trans h
        refine (findTable?_putTable_putTable_eq_iff (by rwa [hfirstName, hotherName])).trans ?_
        rw [hfirstName, hotherName]
        refine and_congr_right fun _ => ⟨fun hown _ hok => ?_, fun hk => ?_⟩
        · cases hok
          rw [hother]
          exact hown
        · rw [← hother]
          exact hk described' rfl
      · cases ho.symm.trans h

/-- A failing change of a dropped key fails at the first description or, with a new snapshot in, at
the second. -/
theorem keeps_of_unlink_error {name : String} {dropped : Constraint}
    (h : outcome ((RegistryChange.unlink dropped).apply engine name) database = (.error e, after)) :
    (∀ n, after.table? n = database.table? n) ↔
      KeepsTables engine name database (.unlink dropped) := by
  unfold RegistryChange.apply applyDrop at h
  obtain ⟨result, state, hd, hname⟩ := exists_outcome_describeTable engine name database
  cases result with
  | error e' =>
    rw [outcome_bind_of_error (outcome_refreshTable_of_error hd)] at h
    cases h
    refine ⟨fun _ table hok => ?_, fun _ n => rfl⟩
    rw [hd] at hok
    cases hok
  | ok described =>
    rw [outcome_bind_of_ok (outcome_refreshTable_of_ok hd)] at h
    generalize hfirst : renewed (database.table? name) (some dropped) described = first at h
    have hfirstName : first.name = name := by rw [← hfirst, name_renewed, hname described rfl]
    have hkeeps : KeepsTables engine name database (.unlink dropped) ↔
        database.table? name = some first := by
      constructor
      · intro hk
        rw [← hfirst, ← hk described (by rw [hd])]
      · intro hown table hok
        rw [hd] at hok
        cases hok
        rw [hfirst, hown]
    have htables : after.tables = putTable database.tables first := by
      split at h
      case h_1 key =>
        cases hk : key.foreign.table with
        | none =>
          simp only [hk] at h
          cases h
        | some other =>
          simp only [hk] at h
          rw [outcome_bind_of_ok (outcome_get _)] at h
          split at h
          case isTrue => exact tables_of_refreshTable_error h
          case isFalse => cases h
      case h_2 => cases h
    rw [hkeeps, ← hfirstName]
    refine Iff.trans ?_ findTable?_putTable_eq_iff
    rw [← htables]
    rfl

/-! ### Submissions -/

/-- When a submission fails, the registry answers every look-up as before exactly if its statement
was not answered, or the change that failed after the answer is one that keeps the tables. -/
theorem submit_error_keeps_iff (h : outcome (submit engine request) before = (.error e, after)) :
    (∀ name, after.table? name = before.table? name) ↔
      ∀ resolved state, Answered engine request before resolved state →
        KeepsTables engine request.table.name (before.withEngine state)
          (registryChange resolved.method request) := by
  obtain ⟨htables, hnone⟩ | ⟨resolved, state, ha, hunique, happly⟩ := submit_error_cases h
  · refine ⟨fun _ resolved state ha => absurd ha (hnone resolved state), fun _ name => ?_⟩
    rw [table?, htables]
    rfl
  · obtain ⟨_, _, _, hruns, -⟩ := ha.runs
    rw [applyChange_of_validate hruns.valid] at happly
    have hkeeps : (∀ name, after.table? name = (before.withEngine state).table? name) ↔
        KeepsTables engine request.table.name (before.withEngine state)
          (registryChange resolved.method request) := by
      cases hc : registryChange resolved.method request with
      | remove =>
        rw [hc] at happly
        cases happly
      | rename new =>
        rw [hc] at happly
        exact keeps_of_rename_error happly
      | create temporary =>
        rw [hc] at happly
        refine ⟨fun _ => trivial, fun _ name => ?_⟩
        rw [table?, tables_of_loadTable_error happly]
        rfl
      | refresh =>
        rw [hc] at happly
        refine ⟨fun _ => trivial, fun _ name => ?_⟩
        rw [table?, tables_of_refreshTable_error happly]
        rfl
      | link column foreign key =>
        rw [hc] at happly
        obtain ⟨hm, hf, hforeign⟩ := eq_of_registryChange_link hc
        obtain ⟨table, target, ht, hr, foreignTable, foreignColumn, other, hs, hne, -⟩ :=
          Request.foreign_of_validate hruns.valid hm hf hforeign
        exact keeps_of_link_error ht hr hs hne happly
      | unlink dropped =>
        rw [hc] at happly
        exact keeps_of_unlink_error happly
    constructor
    · intro hall other state' ha'
      obtain ⟨rfl, rfl⟩ := hunique other state' ha'
      exact hkeeps.mp hall
    · intro hk
      exact hkeeps.mpr (hk resolved state ha)

/-! ### A rename that loses its table -/

/-- A script with a table of users that cannot be described as `accounts`. -/
def renameScript : Script :=
  ((({} : Script).listTables [.text "users"]).describe "users"
    [[.text "id", .text "int", .text "NO", .text "PRI", .null, .text ""]]).answer
    (describeText "accounts") (.error "gone")

/-- The database after it has connected to the script. -/
def renameDatabase : Database Script :=
  (outcome (connect Script.engine) { name := "db", engine := renameScript }).2

/-- The request to call the users accounts. -/
def renameRequest : Request :=
  { method := "rename table", table := .byName "users", fields := .column (.byName "accounts") }

theorem outcome_renameRequest : outcome (submit Script.engine renameRequest) renameDatabase =
    (.error (.executor "gone"), (outcome (submit Script.engine renameRequest) renameDatabase).2) :=
  Prod.ext (by decide +kernel) rfl

theorem submit_error_keeps_iff_rename :
    let after := (outcome (submit Script.engine renameRequest) renameDatabase).2
    outcome (submit Script.engine renameRequest) renameDatabase =
      (.error (.executor "gone"), after) ∧
      ((∀ name, after.table? name = renameDatabase.table? name) ↔
        ∀ resolved state, Answered Script.engine renameRequest renameDatabase resolved state →
          KeepsTables Script.engine "users" (renameDatabase.withEngine state)
            (registryChange resolved.method renameRequest)) :=
  ⟨outcome_renameRequest, submit_error_keeps_iff outcome_renameRequest⟩

/-- The statement of the rename succeeds and the description of `accounts` fails: the submission is
an error, and the registry no longer knows the users. -/
theorem lookup_lost_by_rename :
    ∃ before after : Database Script,
      before = (outcome (connect Script.engine) { name := "db", engine := renameScript }).2 ∧
      outcome (submit Script.engine renameRequest) before = (.error (.executor "gone"), after) ∧
      (before.table? "users").isSome = true ∧ after.table? "users" = none :=
  ⟨renameDatabase, _, rfl, outcome_renameRequest, by decide +kernel, by decide +kernel⟩

end Database

end SchemaQuery
