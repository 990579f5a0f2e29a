import SchemaQuery.Proofs.Database.LinkedKey

/-! A new foreign key without a name of its own.  Its name and the column that it refers to are
worked out three times: validation checks the name of a key to the column that it has found, while
the statement and the link in the registry go by the name that the request has for the column.  A
request may have the name of the table in front of that name, even if the table has been named
already; then validation finds a column that the other two do not know. -/

namespace SchemaQuery

open Database

variable {catalog : Catalog} {request : Request} {resolved : Resolved} {table other : Table}
  {target referenced : Column} {foreign : String × String} {place : ColumnKey} {tables : List Table}

/-! ### The statement -/

theorem ForeignKey.defaultName_eq_iff {target one other : ColumnKey} :
    defaultName target one = defaultName target other ↔ one.column = other.column := by
  rw [defaultName, defaultName, String.append_right_inj]

theorem MySql.clause_foreign (name column : String) (references : String × String) :
    NewConstraint.clause
        { kind := .foreign, name := some name, column, references := some references } =
      "add " ++ ("constraint " ++ name ++ " ") ++ "foreign key (" ++ column ++ ")" ++
        (" references " ++ quoteIdentifier references.1 ++
          " (" ++ columnIdentifier references.2 ++ ")") := rfl

namespace Request

/-- The name that a statement gives to a foreign key without one. -/
def writtenName (target : Column) (foreign : String × String) : String :=
  ForeignKey.defaultName target.key ⟨none, foreign.2⟩

/-- The statement for a foreign key without a name. -/
def foreignKeyText (request : Request) (target : Column) (foreign : String × String) : String :=
  "alter table " ++ request.table.target.text ++ " add constraint " ++ writtenName target foreign ++
    " foreign key (" ++ MySql.columnIdentifier target.name ++ ") references " ++
    MySql.quoteIdentifier foreign.1 ++ " (" ++ MySql.columnIdentifier foreign.2 ++ ");"

theorem text_addForeign (request : Request) (target : Column) (foreign : String × String) :
    (Statement.addConstraint request.table.target
      { kind := .foreign, name := some (writtenName target foreign),
        column := MySql.columnIdentifier target.name, references := some foreign }).text =
      request.foreignKeyText target foreign := by
  have hadd : " add constraint " = " " ++ ("add " ++ "constraint ") := by decide
  have hkey : " foreign key (" = " " ++ "foreign key (" := by decide
  have hreferences : ") references " = ")" ++ " references " := by decide
  have hend : ");" = ")" ++ ";" := by decide
  rw [Statement.text_addConstraint, MySql.clause_foreign]
  unfold foreignKeyText
  simp only [hadd, hkey, hreferences, hend, String.append_assoc, -String.reduceAppend]

theorem FindsKey.text_eq (hfinds : request.FindsKey catalog table target foreign other referenced)
    (hvalid : request.validate catalog = .ok resolved)
    (hmethod : resolved.method = .addConstraint .foreign)
    (hname : request.modifiers.name = none) :
    request.text catalog = .ok (request.foreignKeyText target foreign) := by
  have hr := (validate_eq_ok_iff.mp hvalid).1
  obtain ⟨known, hknown, ht⟩ := table_of_resolve hr (by rw [hmethod]; rfl) (by rw [hmethod]; rfl)
  cases hfinds.known.symm.trans hknown
  obtain ⟨column, hfields, hresolve⟩ := hfinds.resolves
  obtain ⟨reference, hforeign, hsplit⟩ := hfinds.splits
  have hconstraint : newConstraint table .foreign column request.modifiers = .ok
      { kind := .foreign, name := some (writtenName target foreign),
        column := MySql.columnIdentifier target.name, references := some foreign } := by
    simp only [newConstraint, hresolve, ok_bind, hforeign, hsplit, map_ok, hname]
    rfl
  have hstatement : statementOf resolved request = .ok (.addConstraint request.table.target
      { kind := .foreign, name := some (writtenName target foreign),
        column := MySql.columnIdentifier target.name, references := some foreign }) := by
    simp only [statementOf, hmethod, ht, ok_bind, hfields, hconstraint]
    rfl
  rw [text_of_resolve hr hstatement, text_addForeign]

/-- The column that validation finds has the name of the reference, or that without the name of its
table. -/
theorem FindsKey.spelled (hfinds : request.FindsKey catalog table target foreign other referenced) :
    foreign.2 = referenced.name ∨ foreign.2 = foreign.1 ++ "." ++ referenced.name := by
  rw [← name_of_findTable? hfinds.knownOther]
  exact (Table.mem_of_column? hfinds.finds).2

end Request

/-! ### The link -/

/-- The key that the registry gets for a foreign key without a name. -/
def Request.recordedKey (request : Request) (target : Column) (foreign : String × String) :
    ForeignKey :=
  .between none ⟨some request.table.name, target.name⟩ ⟨some foreign.1, foreign.2⟩

/-- In a registry the column that the key leads away from has its table for an owner. -/
theorem Request.FindsKey.name_recordedKey
    (hfinds : request.FindsKey catalog table target foreign other referenced)
    (h : IsRegistry catalog.tables) :
    (request.recordedKey target foreign).name = writtenName target foreign := by
  obtain ⟨hconsistent, hname⟩ := h.find hfinds.known
  obtain ⟨_, -, hresolve⟩ := hfinds.resolves
  have hkey : target.key = ⟨some request.table.name, target.name⟩ := by
    rw [hconsistent.key_eq (Table.mem_of_resolve hresolve), hname]
  rw [writtenName, hkey]
  rfl

namespace Database

variable {ε : Type} {engine : Engine ε} {before first after last database : Database ε} {state : ε}
  {name column foreignTable foreignColumn : String} {asked : Option String}

/-- A change of the schema whose statement has been answered ends as its work on the registry
does. -/
theorem submit_of_answer {text : String} {answer : Option (List Row)} {output : Output}
    (runs : Runs engine request before resolved text (.ok answer) state)
    (read : Output.ofAnswer resolved.method request.modifiers.maxRows answer = .ok output)
    (changes : resolved.method.changesSchema = true) :
    outcome (submit engine request) before =
      ((outcome (applyChange engine resolved.method request) (before.withEngine state)).1.map
          fun _ => output,
        (outcome (applyChange engine resolved.method request) (before.withEngine state)).2) := by
  have hends := ends_submit engine request before
  generalize outcome (submit engine request) before = ended at hends
  cases hends with
  | rejected invalid => cases runs.valid.symm.trans invalid
  | unanswered other => cases (runs.unique other).2.2.1
  | unread other unread =>
    obtain ⟨rfl, -, hanswer, -⟩ := runs.unique other
    cases hanswer
    cases read.symm.trans unread
  | kept other read' keeps =>
    obtain ⟨rfl, -⟩ := runs.unique other
    cases changes.symm.trans keeps
  | changed other read' _ =>
    obtain ⟨rfl, -, hanswer, rfl⟩ := runs.unique other
    cases hanswer
    cases read.symm.trans read'
    rfl

theorem exists_table_of_columnAt? {found : Column}
    (h : columnAt? tables ⟨some name, column⟩ = some found) :
    ∃ table, findTable? tables name = some table ∧ table.columnNamed? column = some found :=
  Option.bind_eq_some_iff.mp h

/-- Two columns of different tables that are both there can be linked. -/
theorem exists_outcome_linkForeignKey (asked : Option String) (hne : name ≠ foreignTable)
    (hown : OwnColumns database.tables name) (hown' : OwnColumns database.tables foreignTable)
    (htarget : (columnAt? database.tables ⟨some name, column⟩).isSome)
    (hforeign : (columnAt? database.tables ⟨some foreignTable, foreignColumn⟩).isSome) :
    ∃ last, outcome (linkForeignKey name column foreignTable foreignColumn asked) database =
      (.ok (), last) := by
  obtain ⟨referencing, hat⟩ := Option.isSome_iff_exists.mp htarget
  obtain ⟨referenced, hat'⟩ := Option.isSome_iff_exists.mp hforeign
  obtain ⟨table, ht, hc⟩ := exists_table_of_columnAt? hat
  obtain ⟨other, hf, hr⟩ := exists_table_of_columnAt? hat'
  have htables : referencing.key.table ≠ referenced.key.table := by
    rw [hown _ _ rfl hat, hown' _ _ rfl hat']
    exact fun h => hne (Option.some.inj h)
  obtain ⟨linked, hlink⟩ : ∃ linked, referencing.link referenced asked = .ok linked :=
    exists_map_eq_ok_iff.mpr ⟨_, if_neg htables⟩
  rw [linkForeignKey, outcome_bind_of_ok (outcome_requireTable_of_some ht),
    outcome_bind_of_ok (outcome_requireTable_of_some hf)]
  simp only [hr, hc]
  exact ⟨_, outcome_bind_of_ok (by rw [outcome_lift, hlink])⟩

theorem outcome_linkForeignKey_of_none
    (htarget : (columnAt? database.tables ⟨some name, column⟩).isSome)
    (hf : database.table? foreignTable = some other)
    (hnone : columnAt? database.tables ⟨some foreignTable, foreignColumn⟩ = none) :
    outcome (linkForeignKey name column foreignTable foreignColumn asked) database =
      (.error (.schema (.unknownForeignColumn (foreignTable ++ "." ++ foreignColumn))),
        database) := by
  obtain ⟨referencing, hat⟩ := Option.isSome_iff_exists.mp htarget
  obtain ⟨table, ht, -⟩ := exists_table_of_columnAt? hat
  have hr : other.columnNamed? foreignColumn = none := by
    rw [columnAt?, Option.bind_some] at hnone
    change (database.table? foreignTable).bind _ = none at hnone
    rwa [hf] at hnone
  rw [linkForeignKey, outcome_bind_of_ok (outcome_requireTable_of_some ht),
    outcome_bind_of_ok (outcome_requireTable_of_some hf)]
  simp only [hr]
  rfl

/-- Whether the statement of a request is answered, and then its table and another one are described
again. -/
def Redescribes (engine : Engine ε) (request : Request) (foreignTable : String)
    (before after : Database ε) : Prop :=
  ∃ resolved text answer state first, Runs engine request before resolved text (.ok answer) state ∧
    outcome (refreshTable engine request.table.name none) (before.withEngine state) =
      (.ok (), first) ∧
    outcome (refreshTable engine foreignTable none) first = (.ok (), after)

/-- After both descriptions the submission ends as the link does. -/
theorem submit_of_redescribes
    (hfinds : request.FindsKey (before.catalog engine) table target foreign other referenced)
    (hvalid : request.validate (before.catalog engine) = .ok resolved)
    (hmethod : resolved.method = .addConstraint .foreign)
    (h : Redescribes engine request foreign.1 before after) :
    outcome (submit engine request) before =
      ((outcome (linkForeignKey request.table.name target.name foreign.1 foreign.2
          request.modifiers.name) after).1.map fun _ => .empty,
        (outcome (linkForeignKey request.table.name target.name foreign.1 foreign.2
          request.modifiers.name) after).2) := by
  obtain ⟨_, text, answer, state, first, runs, hfirst, hsecond⟩ := h
  cases hvalid.symm.trans runs.valid
  obtain ⟨column, hfields, hresolve⟩ := hfinds.resolves
  obtain ⟨reference, hforeign, hsplit⟩ := hfinds.splits
  have hread : Output.ofAnswer resolved.method request.modifiers.maxRows answer = .ok .empty := by
    rw [hmethod]
    cases answer <;> rfl
  have hknown : (before.withEngine state).table? request.table.name = some table := hfinds.known
  have happly : outcome (applyChange engine resolved.method request) (before.withEngine state) =
      outcome (linkForeignKey request.table.name target.name foreign.1 foreign.2
        request.modifiers.name) after := by
    have hchange : registryChange resolved.method request =
        .link column reference request.modifiers.name := by
      simp only [registryChange, hmethod, hfields, hforeign]
    rw [applyChange_of_validate hvalid, hchange, RegistryChange.apply,
      outcome_applyForeignKey hknown hresolve hsplit, outcome_bind_of_ok hfirst,
      outcome_bind_of_ok hsecond]
  rw [submit_of_answer runs hread (by rw [hmethod]; rfl), happly]

/-- A valid request for a foreign key without a name, and what becomes of it.  The name that was
checked is the one that is written exactly if the request has the own name of the column that was
found, and not also that of its table a second time.  The registry records the written name, as long
as the engine reports a column of the written name; else the key is not linked although the
statement has run. -/
theorem newForeignKey_spelled (hvalid : request.validate catalog = .ok resolved)
    (hmethod : resolved.method = .addConstraint .foreign) (hname : request.modifiers.name = none) :
    ∃ table target foreign other referenced,
      request.FindsKey catalog table target foreign other referenced ∧
      (ForeignKey.defaultName target.key referenced.key).length ≤ maxNameLength ∧
      request.text catalog = .ok (request.foreignKeyText target foreign) ∧
      (Request.writtenName target foreign = ForeignKey.defaultName target.key referenced.key ↔
        foreign.2 = referenced.name) ∧
      (foreign.2 = referenced.name ∨ foreign.2 = foreign.1 ++ "." ++ referenced.name) ∧
      ∀ {ε : Type} (engine : Engine ε) (before after : Database ε), before.catalog engine =
        catalog → IsRegistry before.tables → Redescribes engine request foreign.1 before after →
        (columnAt? after.tables ⟨some request.table.name, target.name⟩).isSome →
          (request.recordedKey target foreign).name = Request.writtenName target foreign ∧
          ((columnAt? after.tables ⟨some foreign.1, foreign.2⟩).isSome →
            ∃ last, outcome (submit engine request) before = (.ok .empty, last) ∧
              Linked (request.recordedKey target foreign) after.tables last.tables) ∧
          (columnAt? after.tables ⟨some foreign.1, foreign.2⟩ = none →
            outcome (submit engine request) before =
              (.error (.schema (.unknownForeignColumn (foreign.1 ++ "." ++ foreign.2))),
                after)) := by
  obtain ⟨table, target, foreign, other, referenced, hfinds, hlength⟩ :=
    Request.findsKey_of_validate hvalid hmethod
  refine ⟨table, target, foreign, other, referenced, hfinds, hlength hname,
    hfinds.text_eq hvalid hmethod hname, ForeignKey.defaultName_eq_iff, hfinds.spelled, ?_⟩
  rintro ε engine before after rfl hregistry hdescribed htarget
  have hsubmit := submit_of_redescribes hfinds hvalid hmethod hdescribed
  obtain ⟨_, _, _, state, first, -, hfirst, hsecond⟩ := hdescribed
  have hne : request.table.name ≠ foreign.1 := hfinds.apart.symm
  refine ⟨hfinds.name_recordedKey hregistry, fun hforeign => ?_, fun hnone => ?_⟩
  · have hown : OwnColumns after.tables request.table.name := by
      refine (ownColumns_refreshTable hfirst).congr fun place hplace => ?_
      exact (carries_refreshTable hsecond).2 place fun h =>
        hne (Option.some.inj (hplace.symm.trans h))
    obtain ⟨last, hlink⟩ := exists_outcome_linkForeignKey request.modifiers.name hne hown
      (ownColumns_refreshTable hsecond) htarget hforeign
    have hlinked := linked_linkForeignKey hne hown (ownColumns_refreshTable hsecond) hlink
    rw [hname] at hlinked
    rw [hlink] at hsubmit
    exact ⟨last, hsubmit, hlinked⟩
  · obtain ⟨described, hdescribed, htables⟩ := exists_described_of_refreshTable hsecond
    have hother : after.table? foreign.1 =
        some (renewed (first.table? foreign.1) none described) := by
      change findTable? after.tables foreign.1 = _
      rw [htables, findTable?_putTable, if_pos (by rw [name_renewed, hdescribed.name])]
    rw [hsubmit, outcome_linkForeignKey_of_none htarget hother hnone]
    rfl

/-! ### The key of the shop -/

/-- A script lets a statement pass that it has no answer to. -/
theorem outcome_execute_script {script : Script} {text : String} {options : ExecOptions}
    (h : script.answers.lookup text = none) (hrows : options.expectsRows = false) :
    outcome (Script.execute text options) script = (.ok none, script) := by
  rw [Script.execute, outcome_bind_of_ok (outcome_get script), h, hrows]
  rfl

/-- The request that the users of orders be users, with a spelling of the column that they are. -/
def spelledRequest (foreign : String) : Request :=
  { orderKeyRequest with modifiers := { foreign := some (.byName foreign) } }

/-- What such a request works on. -/
def resolvedOrders : Resolved :=
  ⟨.addConstraint .foreign, (shop.catalog Script.engine).table? "orders"⟩

/-- The shop after its orders have been described again. -/
def describedOrders : Database Script := (outcome (refreshTable Script.engine "orders" none) shop).2

/-- The shop after its orders and its users have been described again. -/
def describedShop : Database Script :=
  (outcome (refreshTable Script.engine "users" none) describedOrders).2

theorem isRegistry_shop : IsRegistry shop.tables := isRegistry_connect isRegistry_nil listsOnce_shop

/-- A valid statement for the key that the script has no answer to is run, and both tables are
described. -/
theorem redescribes_shop {spelling written : String}
    (hvalid : (spelledRequest spelling).validate (shop.catalog Script.engine) = .ok resolvedOrders)
    (htext : (spelledRequest spelling).text (shop.catalog Script.engine) = .ok written)
    (hnone : (shop.engine.answers.lookup written).isNone) :
    Redescribes Script.engine (spelledRequest spelling) "users" shop describedShop := by
  have hfirst : outcome (refreshTable Script.engine "orders" none) shop =
      (.ok (), describedOrders) :=
    Prod.ext (by decide +kernel) rfl
  have hsecond : outcome (refreshTable Script.engine "users" none) describedOrders =
      (.ok (), describedShop) :=
    Prod.ext (by decide +kernel) rfl
  exact ⟨resolvedOrders, written, none, shop.engine, describedOrders,
    ⟨hvalid, htext, outcome_execute_script (Option.isNone_iff_eq_none.mp hnone) rfl⟩,
    hfirst, hsecond⟩

/-- The key from the orders to the users of the shop gets one name. -/
theorem newForeignKey_spelled_orders :
    (spelledRequest "users.id").validate (shop.catalog Script.engine) = .ok resolvedOrders ∧
    resolvedOrders.method = .addConstraint .foreign ∧
      (spelledRequest "users.id").modifiers.name = none ∧
    IsRegistry shop.tables ∧ Redescribes Script.engine (spelledRequest "users.id") "users" shop
      describedShop ∧
    (spelledRequest "users.id").text (shop.catalog Script.engine) = .ok
      ("alter table `orders` add constraint fk_orders_user_id_id foreign key (user_id) " ++
        "references `users` (id);") ∧
    ∃ last, outcome (submit Script.engine (spelledRequest "users.id")) shop = (.ok .empty, last) ∧
      Linked orderKey describedShop.tables last.tables := by
  have hvalid : (spelledRequest "users.id").validate (shop.catalog Script.engine) =
      .ok resolvedOrders := by
    decide +kernel
  have htext : (spelledRequest "users.id").text (shop.catalog Script.engine) = .ok
      ("alter table `orders` add constraint fk_orders_user_id_id foreign key (user_id) " ++
        "references `users` (id);") := by
    decide +kernel
  have hdescribed := redescribes_shop hvalid htext (by decide +kernel)
  obtain ⟨table, target, foreign, other, referenced, hfinds, -, -, -, -, hlinks⟩ :=
    newForeignKey_spelled hvalid rfl rfl
  obtain ⟨_, hreference, hsplit⟩ := hfinds.splits
  cases hreference
  have hends : (ColumnRef.byName "users.id").splitQualified = .ok ("users", "id") := by
    decide +kernel
  cases hends.symm.trans hsplit
  obtain ⟨_, hcolumn, hresolve⟩ := hfinds.resolves
  cases hcolumn
  have htarget : ((shop.catalog Script.engine).table? "orders").bind (fun table =>
      (table.resolve? (.byName "user_id")).map Column.name) = some "user_id" := by decide +kernel
  have hname : target.name = "user_id" := by
    have hknown : (shop.catalog Script.engine).table? "orders" = some table := hfinds.known
    rw [hknown, Option.bind_some, Table.resolve_eq_ok_iff.mp hresolve, Option.map_some] at htarget
    exact Option.some.inj htarget
  have hkey : (spelledRequest "users.id").recordedKey target ("users", "id") = orderKey := by
    rw [Request.recordedKey, hname]
    rfl
  rw [hkey, hname] at hlinks
  obtain ⟨-, hlinked, -⟩ :=
    hlinks Script.engine shop describedShop rfl isRegistry_shop hdescribed (by decide +kernel)
  exact ⟨hvalid, rfl, rfl, isRegistry_shop, hdescribed, htext, hlinked (by decide +kernel)⟩

/-- With the users named twice the name that is checked is not the one that is written.  The
statement refers to a column that validation has not found, and although both tables are described
with the columns of the key the key is not linked. -/
theorem key_lost_by_spelling : IsRegistry shop.tables ∧
    (spelledRequest "users.users.id").validate (shop.catalog Script.engine) = .ok resolvedOrders ∧
    ((shop.catalog Script.engine).table? "users").bind (fun table =>
      (table.column? "users.id").map Column.name) = some "id" ∧
    (spelledRequest "users.users.id").text (shop.catalog Script.engine) = .ok
      ("alter table `orders` add constraint fk_orders_user_id_users.id foreign key (user_id)" ++
        " references `users` (`users.id`);") ∧
    Redescribes Script.engine (spelledRequest "users.users.id") "users" shop describedShop ∧
    (columnAt? describedShop.tables orderKey.target).isSome ∧
    (columnAt? describedShop.tables orderKey.foreign).isSome ∧
    (outcome (submit Script.engine (spelledRequest "users.users.id")) shop).1 =
      .error (.schema (.unknownForeignColumn "users.users.id")) := by
  have hvalid : (spelledRequest "users.users.id").validate (shop.catalog Script.engine) =
      .ok resolvedOrders := by
    decide +kernel
  have htext : (spelledRequest "users.users.id").text (shop.catalog Script.engine) = .ok
      ("alter table `orders` add constraint fk_orders_user_id_users.id foreign key (user_id)" ++
        " references `users` (`users.id`);") := by
    decide +kernel
  exact ⟨isRegistry_shop, hvalid, by decide +kernel, htext,
    redescribes_shop hvalid htext (by decide +kernel), by decide +kernel, by decide +kernel, by
    decide +kernel⟩

end Database

end SchemaQuery
