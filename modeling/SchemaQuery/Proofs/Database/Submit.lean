import SchemaQuery.Proofs.Database.Ending

/-! What submitting a request sends and what it leaves alone.  A rejected request sends nothing; a
valid one sends its statement first, and after a change of the schema the descriptions of the tables
that the change is about.  The entries of all other tables stay in the registry as they are. -/

namespace SchemaQuery.Database

variable {ε α β : Type} {engine : Engine ε} {request : Request} {resolved : Resolved}

/-! ### What the steps after a change of the schema send -/

/-- The call that asks for the description of a table. -/
def describeCall (name : String) : Call := .execute (describeText name) { expectsRows := true }

/-- Whether a step asks for the descriptions of some tables in their order, for all of them if it
succeeds, and keeps the entries of the registry outside `touched`, whether it succeeds or not. -/
structure Follows (touched described : List String) (action : Action (Database (Recorded ε)) α)
    (before : Database (Recorded ε)) : Prop where
  calls : ∃ names, names <+: described ∧
    (outcome action before).2.engine.calls = before.engine.calls ++ names.map describeCall ∧
    ∀ a, (outcome action before).1 = .ok a → names = described
  outside : tablesOutside touched (outcome action before).2.tables =
    tablesOutside touched before.tables

variable {touched asked more : List String} {before : Database (Recorded ε)}
  {action : Action (Database (Recorded ε)) α} {next : α → Action (Database (Recorded ε)) β}

/-- One step after another: the second asks for its descriptions once the first has all of its
own. -/
theorem Follows.bind (h : Follows touched asked action before)
    (hnext : ∀ a after, outcome action before = (.ok a, after) →
      Follows touched more (next a) after) :
    Follows touched (asked ++ more) (action >>= next) before := by
  obtain ⟨⟨names, hnames, hcalls, hall⟩, houtside⟩ := h
  cases ho : outcome action before with
  | mk result after =>
    rw [ho] at hcalls hall houtside
    cases result with
    | error e =>
      have hbind := outcome_bind_of_error (f := next) ho
      refine ⟨⟨names, hnames.trans (List.prefix_append _ _), ?_, fun a ha => ?_⟩, ?_⟩
      · rw [hbind, hcalls]
      · rw [hbind] at ha
        cases ha
      · rw [hbind, houtside]
    | ok a =>
      have hbind := outcome_bind_of_ok (f := next) ho
      obtain ⟨⟨names', hnames', hcalls', hall'⟩, houtside'⟩ := hnext a after ho
      obtain rfl := hall a rfl
      refine ⟨⟨names ++ names', (List.prefix_append_right_inj names).mpr hnames', ?_,
        fun b hb => ?_⟩, ?_⟩
      · rw [hbind, hcalls', hcalls, List.map_append, List.append_assoc]
      · rw [hbind] at hb
        rw [hall' b hb]
      · rw [hbind, houtside', houtside]

/-- A step that fails, or has nothing to ask for, and changes nothing. -/
theorem Follows.of_same {result : Except Error α} (h : outcome action before = (result, before))
    (hr : ∀ a, result = .ok a → asked = []) : Follows touched asked action before := by
  refine ⟨⟨[], List.nil_prefix, by rw [h]; simp, fun a ha => ?_⟩, by rw [h]⟩
  rw [h] at ha
  rw [hr a ha]

theorem follows_lift (result : Except Error α) :
    Follows touched [] (liftM result : Action (Database (Recorded ε)) α) before :=
  .of_same (outcome_lift result before) fun _ _ => rfl

theorem follows_get : Follows touched [] (get : Action (Database (Recorded ε)) _) before :=
  .of_same (outcome_get before) fun _ _ => rfl

theorem follows_pure (a : α) :
    Follows touched [] (pure a : Action (Database (Recorded ε)) α) before :=
  .of_same (outcome_pure a before) fun _ _ => rfl

theorem follows_requireTable (name : String) :
    Follows touched [] (requireTable name : Action (Database (Recorded ε)) Table) before := by
  cases h : before.table? name with
  | none => exact .of_same (outcome_requireTable_of_none h) fun _ _ => rfl
  | some table => exact .of_same (outcome_requireTable_of_some h) fun _ _ => rfl

theorem follows_replaceTable {table : Table} (h : table.name ∈ touched) :
    Follows touched [] (replaceTable table) before := by
  refine ⟨⟨[], List.nil_prefix, by simp, fun _ _ => rfl⟩, ?_⟩
  exact tablesOutside_putTable h

theorem follows_removeTable {name : String} (h : name ∈ touched) :
    Follows touched [] (removeTable name) before := by
  refine ⟨⟨[], List.nil_prefix, by simp, fun _ _ => rfl⟩, ?_⟩
  exact tablesOutside_eraseP h

@[simp] theorem outcome_noting (call : Call) (operation : Action ε α) (recorded : Recorded ε) :
    outcome (Recorded.noting call operation) recorded =
      ((outcome operation recorded.state).1,
        ⟨(outcome operation recorded.state).2, recorded.calls ++ [call]⟩) := by
  rw [Recorded.noting, outcome_bind_of_ok (outcome_get recorded)]
  rfl

/-- A description that is not sent, because the connection is closed, fails. -/
theorem follows_describeTable (name : String) :
    Follows touched [name] (describeTable engine.recorded name) before := by
  obtain ⟨result, state, h, -⟩ := exists_outcome_describeTable engine.recorded name before
  refine ⟨?_, by rw [h]; rfl⟩
  rw [outcome_describeTable, outcome_run]
  cases before.isOpen engine.recorded with
  | false => exact ⟨[], List.nil_prefix, by simp, fun a ha => (nomatch ha)⟩
  | true =>
    refine ⟨[name], List.prefix_rfl, ?_, fun _ _ => rfl⟩
    simp only [if_true, Engine.recorded, outcome_noting]
    cases (outcome (engine.execute (describeText name) { expectsRows := true })
      before.engine.state).1 <;> rfl

theorem follows_refreshTable {name : String} (dropped : Option Constraint) (h : name ∈ touched) :
    Follows touched [name] (refreshTable engine.recorded name dropped) before := by
  refine follows_get.bind fun database after hget => ?_
  cases hget
  refine (follows_describeTable name).bind fun table after ht => ?_
  have hname : table.name = name := name_of_describeTable ht
  cases before.table? name with
  | none => exact follows_replaceTable (by rwa [hname])
  | some former => exact follows_replaceTable (by simpa [Table.carryForeignKeys, hname] using h)

theorem follows_loadTable {name : String} (temporary : Bool) (h : name ∈ touched) :
    Follows touched [name] (loadTable engine.recorded name temporary) before := by
  refine (follows_describeTable name).bind fun table after ht => ?_
  have hname : table.name = name := name_of_describeTable ht
  exact follows_replaceTable (by rwa [hname])

theorem follows_linkForeignKey {table foreignTable : String} (column foreignColumn : String)
    (name : Option String) (h : table ∈ touched) (hf : foreignTable ∈ touched) :
    Follows touched [] (linkForeignKey table column foreignTable foreignColumn name) before := by
  obtain ⟨e, ho⟩ | ⟨target, foreign, ht, hforeign, referencing, referenced, -, -, linked, -, ho⟩ :=
    outcome_linkForeignKey before table column foreignTable foreignColumn name
  · exact .of_same ho fun _ _ => rfl
  · refine ⟨⟨[], List.nil_prefix, by rw [ho]; simp, fun _ _ => rfl⟩, ?_⟩
    rw [ho]
    have hn : (target.updateColumn column fun _ => linked.2.1).name ∈ touched := by
      rwa [Table.updateColumn, name_of_findTable? ht]
    have hfn : (foreign.updateColumn foreignColumn fun _ => linked.2.2).name ∈ touched := by
      rwa [Table.updateColumn, name_of_findTable? hforeign]
    exact (tablesOutside_putTable hfn).trans (tablesOutside_putTable hn)

theorem follows_targetColumn (table : String) (reference : ColumnRef) :
    Follows touched []
      (targetColumn table (.column reference) : Action (Database (Recorded ε)) String) before := by
  refine (follows_requireTable table).bind fun known after _ => ?_
  cases known.resolve? reference with
  | some column => exact follows_pure column.name
  | none => exact .of_same (outcome_throw _ after) fun _ _ => rfl

theorem follows_applyForeignKey {table foreignTable foreignColumn : String} (column : ColumnRef)
    {foreign : ColumnRef} (name : Option String) (h : table ∈ touched) (hf : foreignTable ∈ touched)
    (hs : foreign.splitQualified = .ok (foreignTable, foreignColumn)) :
    Follows touched [table, foreignTable]
      (applyForeignKey engine.recorded table (.column column) (some foreign) name) before := by
  refine (follows_targetColumn table column).bind fun target after _ => ?_
  dsimp only
  rw [hs]
  refine (follows_lift (.ok (foreignTable, foreignColumn))).bind fun found after hfound => ?_
  cases hfound
  refine (follows_refreshTable none h).bind fun _ after _ => ?_
  exact (follows_refreshTable none hf).bind fun _ after _ => follows_linkForeignKey _ _ _ h hf

theorem follows_applyForeignKey_of_error {table : String} (column : ColumnRef) {foreign : ColumnRef}
    (name : Option String) {e : Error} (hs : foreign.splitQualified = .error e) :
    Follows touched asked
      (applyForeignKey engine.recorded table (.column column) (some foreign) name) before := by
  refine (follows_targetColumn table column).bind fun target after _ => ?_
  dsimp only
  rw [hs]
  exact (follows_lift (.error e)).bind fun found after hfound => (nomatch hfound)

/-- The table at the other end of a dropped foreign key, if it is another table of the registry. -/
def otherEnd? (name : String) (tables : List Table) : Constraint → Option String
  | .foreign key => key.foreign.table.filter fun other =>
    other ≠ name ∧ (findTable? tables other).isSome
  | _ => none

theorem follows_applyDrop {table : String} {dropped : Constraint} (h : table ∈ touched)
    (hf : ∀ other, otherEnd? table before.tables dropped = some other → other ∈ touched) :
    Follows touched (table :: (otherEnd? table before.tables dropped).toList)
      (applyDrop engine.recorded table dropped) before := by
  refine (follows_refreshTable (some dropped) h).bind fun _ after hrefresh => ?_
  cases dropped with
  | index | unique | primary => exact follows_pure ()
  | foreign key =>
    cases hk : key.foreign.table with
    | none =>
      simp only [otherEnd?, hk, Option.filter_none]
      exact follows_pure ()
    | some other =>
      simp only [otherEnd?, hk] at hf ⊢
      have hafter : other ≠ table ∧ (after.table? other).isSome ↔
          other ≠ table ∧ (findTable? before.tables other).isSome := by
        refine and_congr_right fun hne => ?_
        rw [table?_of_refreshTable hrefresh hne.symm]
        rfl
      refine follows_get.bind fun database after' hget => ?_
      cases hget
      rw [Option.filter_some] at hf ⊢
      by_cases hc : other ≠ table ∧ (findTable? before.tables other).isSome
      · rw [if_pos (by simpa using hc)] at hf ⊢
        rw [if_pos (hafter.mpr hc)]
        exact follows_refreshTable _ (hf other rfl)
      · rw [if_neg (by simpa using hc), if_neg fun ha => hc (hafter.mp ha)]
        exact follows_pure ()

/-- The tables that a change of the schema has described again, in their order: the table itself,
under its new name after a rename, and the other end of a foreign key. -/
def RegistryChange.described (name : String) (tables : List Table) : RegistryChange → List String
  | .remove => []
  | .rename new => [new]
  | .create _ | .refresh => [name]
  | .link _ foreign _ =>
    match foreign.splitQualified with
    | .ok (foreignTable, _) => [name, foreignTable]
    | .error _ => []
  | .unlink dropped => name :: (otherEnd? name tables dropped).toList

theorem follows_applyChange {catalog : Catalog} (engine : Engine ε)
    (h : request.validate catalog = .ok resolved) (before : Database (Recorded ε)) :
    let described :=
      (registryChange resolved.method request).described request.table.name before.tables
    Follows (request.table.name :: described) described
      (applyChange engine.recorded resolved.method request) before := by
  rw [applyChange_of_validate h]
  generalize request.table.name = name
  cases registryChange resolved.method request with
  | remove => exact (follows_removeTable List.mem_cons_self).bind fun _ after _ => follows_pure ()
  | rename new =>
    refine (follows_removeTable List.mem_cons_self).bind fun former after _ => ?_
    exact follows_loadTable _ (by simp [RegistryChange.described])
  | create temporary => exact follows_loadTable _ List.mem_cons_self
  | refresh => exact follows_refreshTable none List.mem_cons_self
  | link column foreign key =>
    cases hs : foreign.splitQualified with
    | error e => exact follows_applyForeignKey_of_error column key hs
    | ok found =>
      simp only [RegistryChange.described, hs]
      exact follows_applyForeignKey column key (by simp) (by simp) hs
  | unlink dropped =>
    exact follows_applyDrop List.mem_cons_self fun other ho => by
      simp [RegistryChange.described, ho]

/-! ### What a submission sends -/

theorem outcome_execute_recorded (text : String) (options : ExecOptions) (recorded : Recorded ε) :
    outcome (engine.recorded.execute text options) recorded =
      ((outcome (engine.execute text options) recorded.state).1,
        ⟨(outcome (engine.execute text options) recorded.state).2,
          recorded.calls ++ [.execute text options]⟩) :=
  outcome_noting _ _ _

theorem Runs.calls {text : String} {result : Except Error (Option (List Row))}
    {recorded : Recorded ε}
    (h : Runs engine.recorded request before resolved text result recorded) :
    recorded.calls = before.engine.calls ++
      [.execute text (answerOptions resolved.method request)] := by
  have hrun := h.run
  rw [outcome_execute_recorded] at hrun
  cases hrun
  rfl

theorem Runs.answered {text : String} {result : Except Error (Option (List Row))}
    {recorded : Recorded ε}
    (h : Runs engine.recorded request before resolved text result recorded) :
    (outcome (engine.execute text (answerOptions resolved.method request)) before.engine.state).1 =
      result := by
  have hrun := h.run
  rw [outcome_execute_recorded] at hrun
  exact congrArg Prod.fst hrun

/-- What has been sent for a valid request, and what has been kept.  The statement is sent once and
first.  After it, and only if its answer was read and the method changes the schema, the tables of
the change are described, in their order and as long as that succeeds.  No entry of the registry but
theirs is touched. -/
structure Sent (engine : Engine ε) (request : Request) (method : Method)
    (before : Database (Recorded ε)) (text : String) (names : List String)
    (ended : Except Error Output × Database (Recorded ε)) : Prop where
  isText : request.text (before.catalog engine.recorded) = .ok text
  calls : ended.2.engine.calls =
    before.engine.calls ++ .execute text (answerOptions method request) :: names.map describeCall
  once : ∀ name ∈ names, describeText name ≠ text
  order : names <+: (registryChange method request).described request.table.name before.tables
  answered : names ≠ [] → method.changesSchema = true ∧ ∃ answer output,
    (outcome (engine.execute text (answerOptions method request)) before.engine.state).1 =
      .ok answer ∧ Output.ofAnswer method request.modifiers.maxRows answer = .ok output
  complete : method.changesSchema = true → ∀ output, ended.1 = .ok output →
    names = (registryChange method request).described request.table.name before.tables
  outside :
    let touched := request.table.name ::
      (registryChange method request).described request.table.name before.tables
    tablesOutside touched ended.2.tables = tablesOutside touched before.tables
  unchanged : method.changesSchema = false → ended.2.tables = before.tables

/-- A submission that ends before the registry is reached has sent the statement alone. -/
theorem Sent.of_quiet {text : String} {result : Except Error (Option (List Row))}
    {recorded : Recorded ε} {ended : Except Error Output}
    (h : Runs engine.recorded request before resolved text result recorded)
    (he : resolved.method.changesSchema = true → ∀ output, ended ≠ .ok output) :
    Sent engine request resolved.method before text [] (ended, before.withEngine recorded) where
  isText := h.isText
  calls := h.calls
  once := by simp
  order := List.nil_prefix
  answered h := absurd rfl h
  complete hm output h := absurd h (he hm output)
  outside := rfl
  unchanged _ := rfl

/-- A submission that reaches the registry goes on with the descriptions. -/
theorem Sent.of_changed {text : String} {answer : Option (List Row)} {output : Output}
    {recorded : Recorded ε}
    (h : Runs engine.recorded request before resolved text (.ok answer) recorded)
    (ho : Output.ofAnswer resolved.method request.modifiers.maxRows answer = .ok output)
    (hm : resolved.method.changesSchema = true) :
    ∃ names, Sent engine request resolved.method before text names
      ((outcome (applyChange engine.recorded resolved.method request)
          (before.withEngine recorded)).1.map fun _ => output,
        (outcome (applyChange engine.recorded resolved.method request)
          (before.withEngine recorded)).2) := by
  obtain ⟨⟨names, horder, hdescribed, hall⟩, houtside⟩ :=
    follows_applyChange engine h.valid (before.withEngine recorded)
  refine ⟨names, h.isText, ?_, fun name _ => h.describeText_ne hm name, horder, ?_, ?_,
    houtside, ?_⟩
  · rw [hdescribed, engine_withEngine, h.calls, List.append_assoc]
    rfl
  · exact fun _ => ⟨hm, answer, output, h.answered, ho⟩
  · intro _ output' hok
    obtain ⟨⟨⟩, hunit, -⟩ := map_eq_ok_iff.mp hok
    exact hall () hunit
  · intro hk
    rw [hm] at hk
    cases hk

/-- Whatever the engine answers, a rejected request sends nothing and changes nothing, and a valid
one sends its statement and then the descriptions that its change of the schema needs. -/
theorem submit_sends (engine : Engine ε) (request : Request) (before : Database (Recorded ε)) :
    (∀ e, request.validate (before.catalog engine.recorded) = .error e →
      outcome (submit engine.recorded request) before = (.error e, before)) ∧
    ∀ resolved, request.validate (before.catalog engine.recorded) = .ok resolved →
      ∃ text names, Sent engine request resolved.method before text names
        (outcome (submit engine.recorded request) before) := by
  have hends := ends_submit engine.recorded request before
  generalize outcome (submit engine.recorded request) before = ended at hends
  constructor
  · intro e he
    cases hends with
    | rejected invalid =>
      cases he.symm.trans invalid
      rfl
    | unanswered runs | unread runs | kept runs | changed runs => cases he.symm.trans runs.valid
  · intro resolved hv
    cases hends with
    | rejected invalid => cases hv.symm.trans invalid
    | unanswered runs =>
      cases hv.symm.trans runs.valid
      exact ⟨_, [], .of_quiet runs fun _ _ h => (nomatch h)⟩
    | unread runs =>
      cases hv.symm.trans runs.valid
      exact ⟨_, [], .of_quiet runs fun _ _ h => (nomatch h)⟩
    | kept runs read keeps =>
      cases hv.symm.trans runs.valid
      exact ⟨_, [], .of_quiet runs fun h => by simp [keeps] at h⟩
    | changed runs read changes =>
      cases hv.symm.trans runs.valid
      exact ⟨_, Sent.of_changed runs read changes⟩

end SchemaQuery.Database
