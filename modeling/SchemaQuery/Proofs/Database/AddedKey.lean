import SchemaQuery.Database.Operations
import SchemaQuery.Proofs.Database.Session
import SchemaQuery.Proofs.MySql.Description

/-! A key that is added under a name.  The statement gives the name to the engine, while the
description that follows only says of which kind the key is.  So the constraint in the new snapshot
is named by its kind, and it is by that name that a later statement drops it. -/

namespace SchemaQuery

open Database MySql

variable {column : Column} {table : Table} {kind : KeyKind} {kind? : Option KeyKind}
  {keys : List Constraint} {c : Constraint} {name : String}

/-! ### Keys of columns -/

theorem Constraint.name_keyed (kind : KeyKind) (target : ColumnKey) :
    (keyed kind target none).name = kind.keyword := by
  cases kind <;> rfl

/-- Whether the key of a column is one of that kind, named by it, or there is none; foreign keys may
stand beside it. -/
def Column.KeyedAs (column : Column) (kind? : Option KeyKind) : Prop :=
  ∃ keys, (∀ c ∈ keys, c.kind? = none) ∧
    column.constraints = (kind?.map fun kind => Constraint.keyed kind column.key none).toList ++
      keys

namespace Column

theorem keyedAs_ownedBy {definition : String} (h : ofDefinition definition = .ok column)
    (name : String) : (column.ownedBy name).KeyedAs column.keyKind? :=
  ⟨[], nofun, by rw [constraints_ownedBy h, List.append_nil]⟩

theorem KeyedAs.carry (h : column.KeyedAs kind?) (hkeys : ∀ c ∈ keys, c.kind? = none) :
    (keys.foldl attach column).KeyedAs kind? := by
  obtain ⟨own, hown, hconstraints⟩ := h
  rw [foldl_attach_foreignKeys hkeys]
  refine ⟨own ++ keys, List.forall_mem_append.mpr ⟨hown, hkeys⟩, ?_⟩
  rw [hconstraints, List.append_assoc]
  rfl

theorem KeyedAs.eq_keyed (h : column.KeyedAs kind?) (hc : c ∈ column.constraints)
    (hkind : c.kind? = some kind) : c = Constraint.keyed kind column.key none := by
  obtain ⟨keys, hkeys, hconstraints⟩ := h
  rw [hconstraints, List.mem_append, Option.mem_toList] at hc
  obtain hc | hc := hc
  · obtain ⟨own, -, rfl⟩ := Option.map_eq_some_iff.mp hc
    rw [kind?_keyed] at hkind
    cases hkind
    rfl
  · cases (hkeys c hc).symm.trans hkind

theorem KeyedAs.keyed_mem (h : column.KeyedAs (some kind)) :
    Constraint.keyed kind column.key none ∈ column.constraints := by
  obtain ⟨keys, -, hconstraints⟩ := h
  rw [hconstraints]
  exact List.mem_cons_self

/-- The key of a column is found where an index is asked for. -/
theorem KeyedAs.find?_index (h : column.KeyedAs (some kind)) :
    column.find? (.kind .index) = some (Constraint.keyed kind column.key none) := by
  obtain ⟨keys, hkeys, hconstraints⟩ := h
  have hnone : ∀ other : KeyKind, keys.findIdx? (fun c => c.kind? == some other) = none := by
    intro other
    refine List.findIdx?_eq_none_iff.mpr fun c hc => ?_
    rw [hkeys c hc]
    rfl
  have hfirst : column.constraints = Constraint.keyed kind column.key none :: keys := hconstraints
  have hindex : findIndex? column.constraints (.kind .index) = some 0 := by
    have hserves : KeyKind.strongestFirst.filter KeyKind.index.servedBy =
      [.primary, .unique, .index] := rfl
    rw [findIndex?, hserves, hfirst]
    simp only [List.findIdx?_cons, hnone, kind?_keyed]
    cases kind <;> rfl
  rw [find?, hindex, Option.bind_some, hfirst]
  rfl

end Column

/-! ### Descriptions -/

/-- Rows of a description that a column of that name can be read from. -/
structure IsAbout (row : Row) (name : String) : Prop where
  field : field? row "Field" = some name
  named : name ≠ ""
  typed : ∃ type, field? row "Type" = some type ∧ Definition.IsType type
  readable : ∀ value ∈ writtenDefault row, IsReadable value

namespace Database

variable {ε : Type} {engine : Engine ε} {database last : Database ε} {answer : Option (List Row)}
  {row : Row} {former : Option Table} {dropped : Option Constraint}

/-- A description that can be read gives each row a column, with the key that the row speaks of. -/
theorem exists_keyedAs_of_readDescription {columnName : String}
    (h : readDescription name answer = .ok table) (hrow : row ∈ answer.getD [])
    (habout : IsAbout row columnName) : ∃ column ∈ table.columns, column.name = columnName ∧
    column.KeyedAs (keyOfField? (field? row "Key")) := by
  obtain ⟨output, hanswer, hread⟩ := bind_eq_ok_iff.mp h
  cases answer with
  | none => cases hrow
  | some rows =>
    obtain ⟨definitions, hdefinitions, rfl⟩ := map_eq_ok_iff.mp hanswer
    obtain ⟨columns, hcolumns, -, rfl⟩ := Table.ofDefinitions_eq_ok_iff.mp hread
    obtain ⟨definition, hdefinition, hdescribed⟩ := exists_mem_of_mapM hdefinitions hrow
    obtain ⟨column, hc, hparsed⟩ := exists_mem_of_mapM hcolumns hdefinition
    obtain ⟨type, htype, hisType⟩ := habout.typed
    rw [describedDefinition, describedColumn_eq habout.field htype] at hdescribed
    cases hdescribed
    obtain ⟨found, hfound, htells⟩ :=
      exists_tells habout.field habout.named htype hisType habout.readable
    cases hparsed.symm.trans hfound
    refine ⟨column.ownedBy name, List.mem_map_of_mem hc, ?_,
      htells.kind ▸ Column.keyedAs_ownedBy hparsed name⟩
    exact Option.some.inj (htells.name.symm.trans habout.field)

theorem keyedAs_of_readDescription (h : readDescription name answer = .ok table) :
    ∀ column ∈ table.columns, ∃ kind?, column.KeyedAs kind? := by
  obtain ⟨output, -, hread⟩ := bind_eq_ok_iff.mp h
  obtain ⟨columns, hcolumns, -, rfl⟩ := Table.ofDefinitions_eq_ok_iff.mp hread
  refine List.forall_mem_map.mpr fun column hc => ?_
  obtain ⟨definition, -, hparsed⟩ := exists_of_mem_mapM hcolumns hc
  exact ⟨_, Column.keyedAs_ownedBy hparsed name⟩

/-- The columns of a new snapshot are those of the description, with foreign keys. -/
theorem exists_columns_renewed (former : Option Table) (dropped : Option Constraint)
    (table : Table) :
    ∃ carry : Column → Column, (renewed former dropped table).columns = table.columns.map carry ∧
      ∀ column, ∃ keys : List Constraint, (∀ c ∈ keys, c.kind? = none) ∧
        carry column = keys.foldl Column.attach column := by
  cases former with
  | none => exact ⟨id, (List.map_id _).symm, fun column => ⟨[], nofun, rfl⟩⟩
  | some former =>
    refine ⟨_, rfl, fun column => ?_⟩
    cases former.columnNamed? column.name with
    | none => exact ⟨[], nofun, rfl⟩
    | some old =>
      refine ⟨_, fun c hc => ?_, rfl⟩
      exact Option.isNone_iff_eq_none.mp (List.mem_filter.mp (List.mem_of_mem_filter hc)).2

theorem columnNames_renewed (former : Option Table) (dropped : Option Constraint) (table : Table) :
    (renewed former dropped table).columnNames = table.columnNames := by
  obtain ⟨carry, hcolumns, hcarry⟩ := exists_columns_renewed former dropped table
  rw [Table.columnNames, hcolumns, List.map_map]
  refine List.map_congr_left fun column _ => ?_
  obtain ⟨keys, -, hcarried⟩ := hcarry column
  rw [Function.comp_apply, hcarried, Column.name_foldl_attach]

theorem keyedAs_renewed (h : readDescription name answer = .ok table) :
    ∀ column ∈ (renewed former dropped table).columns, ∃ kind?, column.KeyedAs kind? := by
  obtain ⟨carry, hcolumns, hcarry⟩ := exists_columns_renewed former dropped table
  rw [hcolumns]
  refine List.forall_mem_map.mpr fun column hc => ?_
  obtain ⟨keys, hkeys, hcarried⟩ := hcarry column
  obtain ⟨kind?, hkeyed⟩ := keyedAs_of_readDescription h column hc
  rw [hcarried]
  exact ⟨kind?, hkeyed.carry hkeys⟩

/-- The column of a row in a new snapshot. -/
theorem exists_keyedAs_renewed {columnName : String} (h : readDescription name answer = .ok table)
    (hrow : row ∈ answer.getD []) (habout : IsAbout row columnName) :
    ∃ column, (renewed former dropped table).columnNamed? columnName = some column ∧
      column ∈ (renewed former dropped table).columns ∧
      column.KeyedAs (keyOfField? (field? row "Key")) := by
  obtain ⟨carry, hcolumns, hcarry⟩ := exists_columns_renewed former dropped table
  obtain ⟨column, hc, rfl, hkeyed⟩ := exists_keyedAs_of_readDescription h hrow habout
  obtain ⟨keys, hkeys, hcarried⟩ := hcarry column
  have hmem : carry column ∈ (renewed former dropped table).columns := by
    rw [hcolumns]
    exact List.mem_map_of_mem hc
  have hnames : (renewed former dropped table).columnNames.Nodup := by
    rw [columnNames_renewed]
    exact (isDescribed_of_readDescription h).consistent.names
  refine ⟨carry column, ?_, hmem, ?_⟩
  · rw [← Table.columnNamed?_of_mem hnames hmem, hcarried, Column.name_foldl_attach]
  · rw [hcarried]
    exact hkeyed.carry hkeys

/-! ### Adding a key -/

/-- The request for a key of a name. -/
def keyRequest (kind : KeyKind) (table : String) (reference : ColumnRef) (name : String) :
    Request :=
  { method := match kind with
      | .index => "add index"
      | .unique => "add unique"
      | .primary => "add primary key"
    table := .byName table, fields := .column reference, modifiers := { name := some name } }

/-- The request to drop a constraint. -/
def dropConstraintRequest (table : String) (c : Constraint) : Request :=
  { method := "drop constraint", table := .byName table, fields := .constraint c }

/-- The rows that the engine describes the table of a request with, once it has answered its
statement. -/
def DescribesThen (engine : Engine ε) (request : Request) (database : Database ε)
    (rows : List Row) : Prop :=
  ∃ resolved text answer state described, Runs engine request database resolved text
    (.ok answer) state ∧
    (outcome (engine.execute (describeText request.table.name) { expectsRows := true }) state).1 =
      .ok described ∧
    rows = described.getD []

variable {tableName : String} {reference : ColumnRef} {snapshot : Table} {catalog : Catalog}

theorem addKey_eq (engine : Engine ε) (kind : KeyKind) (tableName : String) (reference : ColumnRef)
    (name : String) : addKey engine kind tableName reference (some name) =
      ((fun _ => ()) <$> submit engine (keyRequest kind tableName reference name) >>= fun _ =>
        requireTable tableName) := by
  cases kind <;> rfl

theorem ofText_addKey (kind : KeyKind) : ∃ asked : ConstraintKind, asked ≠ .foreign ∧
    ∀ tableName reference name,
      Method.ofText (keyRequest kind tableName reference name).method =
        .ok (.addConstraint asked) := by
  cases kind with
  | index =>
    have hmethod : Method.ofText "add index" = .ok (.addConstraint .index) := by decide +kernel
    exact ⟨.index, by decide, fun _ _ _ => hmethod⟩
  | unique =>
    have hmethod : Method.ofText "add unique" = .ok (.addConstraint .unique) := by decide +kernel
    exact ⟨.unique, by decide, fun _ _ _ => hmethod⟩
  | primary =>
    have hmethod : Method.ofText "add primary key" = .ok (.addConstraint .primary) := by
      decide +kernel
    exact ⟨.primary, by decide, fun _ _ _ => hmethod⟩

theorem registryChange_of_key {asked : ConstraintKind} {request : Request} (h : asked ≠ .foreign) :
    registryChange (.addConstraint asked) request = .refresh := by
  cases asked with
  | foreign => exact absurd rfl h
  | _ => rfl

/-- A key that has been added was asked for in a statement, and then its table was described
again. -/
theorem described_of_addKey
    (hrun : outcome (addKey engine kind tableName reference (some name)) database =
      (.ok snapshot, last)) :
    last.table? tableName = some snapshot ∧
      ∃ resolved text answer state, Runs engine (keyRequest kind tableName reference name) database
          resolved text (.ok answer) state ∧
        outcome (refreshTable engine tableName none) (database.withEngine state) =
          (.ok (), last) := by
  rw [addKey_eq] at hrun
  obtain ⟨_, after, hsubmit, hrequire⟩ := exists_outcome_of_bind hrun
  obtain ⟨rfl, hfound⟩ := found_of_requireTable hrequire
  refine ⟨hfound, ?_⟩
  obtain ⟨asked, hasked, hmethod⟩ := ofText_addKey kind
  rw [outcome_map] at hsubmit
  obtain ⟨hmapped, hlast⟩ := Prod.mk.inj hsubmit
  obtain ⟨output, hresult, -⟩ := map_eq_ok_iff.mp hmapped
  have hsubmitted : outcome (submit engine (keyRequest kind tableName reference name)) database =
      (.ok output, last) :=
    Prod.ext hresult hlast
  obtain ⟨resolved, text, answer, state, runs, hcases⟩ := exists_runs_of_submit hsubmitted
  have hresolved : resolved.method = .addConstraint asked :=
    Except.ok.inj ((spelled_of_validate runs.valid).symm.trans (hmethod tableName reference name))
  rw [hresolved, registryChange_of_key hasked] at hcases
  obtain ⟨hkept, -⟩ | ⟨-, hrefresh⟩ := hcases
  · cases hkept
  · exact ⟨resolved, text, answer, state, runs, hrefresh⟩

/-! ### Dropping the key -/

/-- A key that is not primary is dropped by its name. -/
theorem text_dropConstraint_keyed {target : ColumnKey} (tableName : String) (h : kind ≠ .primary) :
    (Statement.dropConstraint (.table tableName) (Constraint.keyed kind target none)).text =
      "alter table " ++ quoteIdentifier tableName ++ " drop index " ++ kind.keyword ++ ";" := by
  have hclause : " " ++ dropClause (Constraint.keyed kind target none) =
      " drop index " ++ kind.keyword := by
    cases kind with
    | primary => exact absurd rfl h
    | index =>
      have htext : " " ++ ("drop index " ++ "index") = " drop index " ++ "index" := by decide
      exact htext
    | unique =>
      have htext : " " ++ ("drop index " ++ "unique") = " drop index " ++ "unique" := by decide
      exact htext
  have htext :=
    congrArg (fun clause => "alter table " ++ quoteIdentifier tableName ++ clause ++ ";") hclause
  rw [Statement.text_dropConstraint]
  simpa only [Target.text, String.append_assoc] using htext

/-- A constraint of a table of the catalog can be dropped. -/
theorem validate_dropConstraint (hopen : catalog.isOpen = true)
    (hfound : catalog.table? tableName = some table) (hc : c ∈ table.constraints) :
    (dropConstraintRequest tableName c).validate catalog = .ok ⟨.dropConstraint, some table⟩ ∧
      (dropConstraintRequest tableName c).text catalog =
        .ok (Statement.dropConstraint (.table tableName) c).text := by
  have hmethod : Method.ofText "drop constraint" = .ok .dropConstraint := by decide +kernel
  have hresolve : (dropConstraintRequest tableName c).resolve catalog =
      .ok ⟨.dropConstraint, some table⟩ := by
    refine Request.resolve_eq_ok_iff.mpr ⟨hopen, hmethod, ?_⟩
    simp only [Request.resolveTable, dropConstraintRequest, TableRef.name, hfound]
  have hattached : (table.constraints.any c.same) = true :=
    List.any_eq_true.mpr ⟨c, hc, beq_self_eq_true _⟩
  constructor
  · refine Request.validate_eq_ok_iff.mpr ⟨hresolve, rfl,
      Request.checkSchema_eq_ok_iff.mpr ⟨?_, rfl, rfl, rfl⟩⟩
    simp only [Request.fitFields, dropConstraintRequest, Resolved.table, ok_bind, hattached]
    rfl
  · exact Request.text_of_resolve hresolve rfl

/-- What adding a key under a name comes to.  Every keyed constraint of the new snapshot has the
word for its kind as a name, in particular that of a column whose key is described as one of the
kind that was added.  So the name is that of the constraint only if it is the word for the kind, and
this word is what a statement drops. -/
theorem addedKey_named_by_kind (hkind : kind ≠ .primary)
    (hrun : outcome (addKey engine kind tableName reference (some name)) database =
      (.ok snapshot, last)) :
    last.table? tableName = some snapshot ∧
    (∀ column ∈ snapshot.columns, ∀ c ∈ column.constraints, ∀ found, c.kind? = some found →
      c.name = found.keyword) ∧
    ∃ rows, DescribesThen engine (keyRequest kind tableName reference name) database rows ∧
      ∀ row ∈ rows, ∀ columnName, IsAbout row columnName →
        keyOfField? (field? row "Key") = some kind →
        ∃ column c, columnAt? last.tables ⟨some tableName, columnName⟩ = some column ∧
          column.find? (.kind .index) = some c ∧ c.kind? = some kind ∧
            (c.name = name ↔ name = kind.keyword) ∧
          (last.isOpen engine = true →
            (∃ resolved, (dropConstraintRequest tableName c).validate (last.catalog engine) =
              .ok resolved) ∧
            (dropConstraintRequest tableName c).text (last.catalog engine) =
              .ok ("alter table " ++ quoteIdentifier tableName ++ " drop index " ++
                kind.keyword ++ ";")) := by
  obtain ⟨hfound, resolved, text, answer, state, runs, hrefresh⟩ := described_of_addKey hrun
  obtain ⟨described, table, hanswer, hread, htables⟩ := exists_answer_of_refreshTable hrefresh
  have hrenewed : last.table? tableName =
      some (renewed (database.table? tableName) none table) := by
    rw [Database.table?, htables, findTable?_putTable]
    exact if_pos ((name_renewed _ _ _).trans (name_of_readDescription hread))
  cases hrenewed.symm.trans hfound
  refine ⟨hfound, ?_, described.getD [],
    ⟨resolved, text, answer, state, described, runs, hanswer, rfl⟩, ?_⟩
  · intro column hc c hmem found hfoundKind
    obtain ⟨kind?, hkeyed⟩ := keyedAs_renewed hread column hc
    rw [hkeyed.eq_keyed hmem hfoundKind, Constraint.name_keyed]
  · intro row hrow columnName habout hkey
    obtain ⟨column, hnamed, hmem, hkeyed⟩ := exists_keyedAs_renewed hread hrow habout
    rw [hkey] at hkeyed
    have hat : columnAt? last.tables ⟨some tableName, columnName⟩ = some column :=
      (congrArg (Option.bind · _) hfound).trans hnamed
    refine ⟨column, _, hat, hkeyed.find?_index, Column.kind?_keyed _ _ _, ?_, fun hopen => ?_⟩
    · rw [Constraint.name_keyed, eq_comm]
    · have hopen' : (last.catalog engine).isOpen = true := hopen
      obtain ⟨hvalid, htext⟩ :=
        validate_dropConstraint hopen' hfound
          (List.mem_flatMap.mpr ⟨column, hmem, hkeyed.keyed_mem⟩)
      exact ⟨⟨_, hvalid⟩,
        htext.trans (congrArg Except.ok (text_dropConstraint_keyed tableName hkind))⟩

/-! ### The index of a shop -/

/-- No statement changes a script. -/
theorem state_execute_script (script : Script) (text : String) (options : ExecOptions) :
    (outcome (Script.execute text options) script).2 = script := by
  rw [Script.execute, outcome_bind_of_ok (outcome_get script)]
  split <;> rfl

/-- The cells that describe the total of an order, with its key. -/
def totalCells (key : String) : List Value :=
  [.text "total", .text "int", .text "NO", .text key, .null, .text ""]

/-- A database with the totals of orders.  They have no key, but the engine will describe one from
now on. -/
def totalShop : Database Script :=
  let script := (({} : Script).listTables [.text "orders"]).describe "orders" [totalCells ""]
  let database := (outcome (connect Script.engine) { name := "db", engine := script }).2
  database.withEngine (database.engine.describe "orders" [totalCells "MUL"])

/-- The orders with an index on their totals, as the engine describes it. -/
def totalOrders : Table :=
  { name := "orders"
    columns := [{ owner := some "orders", name := "total", type := "int", nullable := false
                  constraints :=
                    [.index { name := "index", target := ⟨some "orders", "total"⟩ }] }] }

/-- The database after the index has been added under a name. -/
def indexedTotal : Database Script :=
  (outcome (addKey Script.engine .index "orders" (.byName "total") (some "ix_total")) totalShop).2

theorem outcome_addKey_total :
    outcome (addKey Script.engine .index "orders" (.byName "total") (some "ix_total")) totalShop =
      (.ok totalOrders, indexedTotal) :=
  Prod.ext (by decide +kernel) rfl

def totalRow : Row := ⟨Script.descriptionColumns.zip (totalCells "MUL")⟩

theorem isAbout_totalRow : IsAbout totalRow "total" := by
  have htype : Column.ofDefinition "total int" = .ok { name := "total", type := "int" } := by
    decide +kernel
  refine ⟨by decide +kernel, by decide,
    ⟨"int", by decide +kernel, Column.isType_of_ofDefinition htype⟩, ?_⟩
  have hnone : writtenDefault totalRow = none := by decide +kernel
  rw [hnone]
  exact nofun

theorem describesThen_total {rows : List Row}
    (h : DescribesThen Script.engine (keyRequest .index "orders" (.byName "total") "ix_total")
      totalShop rows) : rows = [totalRow] := by
  obtain ⟨resolved, text, answer, state, described, runs, hdescribed, rfl⟩ := h
  obtain rfl : totalShop.engine = state :=
    (state_execute_script _ _ _).symm.trans (congrArg Prod.snd runs.run)
  have hrows : (outcome (Script.execute (describeText "orders") { expectsRows := true })
      totalShop.engine).1 = .ok (some [totalRow]) := by
    decide +kernel
  cases hrows.symm.trans hdescribed
  rfl

/-- The index on the totals is found, and dropped, under the word for its kind. -/
theorem addedKey_named_by_kind_total : KeyKind.index ≠ .primary ∧
    outcome (addKey Script.engine .index "orders" (.byName "total") (some "ix_total")) totalShop =
      (.ok totalOrders, indexedTotal) ∧
    ∃ column c, columnAt? indexedTotal.tables ⟨some "orders", "total"⟩ = some column ∧
      column.find? (.kind .index) = some c ∧ c.name ≠ "ix_total" ∧
      (dropConstraintRequest "orders" c).text (indexedTotal.catalog Script.engine) =
        .ok "alter table `orders` drop index index;" := by
  have hkind : KeyKind.index ≠ .primary := by decide
  obtain ⟨-, -, rows, hthen, hrows⟩ := addedKey_named_by_kind hkind outcome_addKey_total
  cases describesThen_total hthen
  obtain ⟨column, c, hat, hfind, -, hname, hdrop⟩ :=
    hrows totalRow List.mem_cons_self "total" isAbout_totalRow (by decide +kernel)
  have hne : c.name ≠ "ix_total" := fun h => absurd (hname.mp h) (by decide)
  have htext : "alter table " ++ quoteIdentifier "orders" ++ " drop index " ++
      KeyKind.index.keyword ++ ";" = "alter table `orders` drop index index;" := by
    decide +kernel
  exact ⟨hkind, outcome_addKey_total, column, c, hat, hfind, hne,
    htext ▸ (hdrop (by decide +kernel)).2⟩

/-- The totals had no key, the index was added under a name that the statement has, and the engine
describes it; but what is found and dropped has another name. -/
theorem name_lost_by_addKey : totalShop.isOpen Script.engine = true ∧
    ((columnAt? totalShop.tables ⟨some "orders", "total"⟩).map fun column =>
      column.find? (.kind .index)) = some none ∧
    "ix_total".length ≤ maxNameLength ∧
    (keyRequest .index "orders" (.byName "total") "ix_total").text
      (totalShop.catalog Script.engine) = .ok "alter table `orders` add index ix_total (total);" ∧
    outcome (addKey Script.engine .index "orders" (.byName "total") (some "ix_total")) totalShop =
      (.ok totalOrders, indexedTotal) ∧
    (outcome (Script.execute (describeText "orders") { expectsRows := true }) totalShop.engine).1 =
      .ok (some [totalRow]) ∧
    keyOfField? (field? totalRow "Key") = some .index ∧
    ∃ c, (columnAt? indexedTotal.tables ⟨some "orders", "total"⟩).bind
        (fun column => column.find? (.kind .index)) = some c ∧ c.name = "index" ∧
      (dropConstraintRequest "orders" c).text (indexedTotal.catalog Script.engine) =
        .ok "alter table `orders` drop index index;" := by
  refine ⟨by decide +kernel, by decide +kernel, by decide +kernel, by decide +kernel,
    outcome_addKey_total, by decide +kernel, by decide +kernel,
    .index { name := "index", target := ⟨some "orders", "total"⟩ },
    by decide +kernel, rfl, by decide +kernel⟩

end Database

end SchemaQuery
