import SchemaQuery.Proofs.Column.Definition.List
import SchemaQuery.Proofs.Request.Unquoted
import SchemaQuery.Proofs.Table

/-! Creating tables.  A request for a new table is valid exactly when the columns that it plans can
make up a table.  Where it gives them as texts, its statement lists the same definitions that were
checked.  A join can be taken for the new table as well, and then its text stands where the name of
the table should. -/

namespace SchemaQuery.Request

variable {catalog : Catalog} {request : Request} {resolved : Resolved} {temporary guarded : Bool}

/-! ### Which tables can be created -/

/-- Columns that make up a new table: there is at least one, the engine knows their types, and their
names are different. -/
structure AreCreatable (columns : List Column) : Prop where
  nonempty : columns ≠ []
  known : ∀ column ∈ columns, MySql.isKnownType column.type = true
  distinct : (columns.map Column.name).Nodup

theorem checkType_eq_ok_iff {column : Column} :
    checkType column = .ok () ↔ MySql.isKnownType column.type = true := by
  rw [checkType]
  split <;> simp_all

theorem checkDefinition_eq_ok_iff {reference : ColumnRef} : checkDefinition reference = .ok () ↔
    ∃ column, reference.toColumn = .ok column ∧ MySql.isKnownType column.type = true := by
  rw [checkDefinition, bind_eq_ok_iff]
  simp only [checkType_eq_ok_iff]

/-- Definitions pass their check when they can be read as columns of known types. -/
theorem forM_checkDefinition_eq_ok_iff {references : List ColumnRef} :
    references.forM checkDefinition = .ok () ↔
      ∃ columns, references.mapM ColumnRef.toColumn = .ok columns ∧
      ∀ column ∈ columns, MySql.isKnownType column.type = true := by
  rw [forM_eq_ok_iff]
  constructor
  · intro h
    obtain ⟨columns, hcolumns⟩ : ∃ columns, references.mapM ColumnRef.toColumn = .ok columns := by
      refine exists_mapM_eq_ok_iff.mpr fun reference hr => ?_
      obtain ⟨column, hread, -⟩ := checkDefinition_eq_ok_iff.mp (h reference hr)
      exact ⟨column, hread⟩
    refine ⟨columns, hcolumns, fun column hc => ?_⟩
    obtain ⟨reference, hr, hread⟩ := exists_of_mem_mapM hcolumns hc
    obtain ⟨_, hfound, hknown⟩ := checkDefinition_eq_ok_iff.mp (h reference hr)
    cases hread.symm.trans hfound
    exact hknown
  · rintro ⟨columns, hcolumns, hknown⟩ reference hr
    obtain ⟨column, hc, hread⟩ := exists_mem_of_mapM hcolumns hr
    exact checkDefinition_eq_ok_iff.mpr ⟨column, hread, hknown column hc⟩

/-- The check of the shape of a new table reads the columns that it plans. -/
theorem checkCreation_eq_ok_iff : checkCreation request.table request.fields = .ok () ↔
    ∃ columns, plannedColumns request = .ok columns ∧ columns ≠ [] ∧
      ∀ column ∈ columns, MySql.isKnownType column.type = true := by
  -- Given as definitions, the columns are read by the check as they are by the plan.
  have hdefined : ∀ fields, (definitions fields >>= fun references => do
        if references.isEmpty then throw (.shape .noDefinitions)
        references.forM checkDefinition) = .ok () ↔
      ∃ columns, (definitions fields >>= List.mapM ColumnRef.toColumn) = .ok columns ∧
        columns ≠ [] ∧ ∀ column ∈ columns, MySql.isKnownType column.type = true := by
    intro fields
    cases definitions fields with
    | error e => simp
    | ok references =>
      rw [ok_bind, ok_bind]
      cases references with
      | nil => simp
      | cons reference rest =>
        simp only [List.isEmpty_cons, Bool.false_eq_true, if_false, forM_checkDefinition_eq_ok_iff]
        refine exists_congr fun columns => and_congr_right fun hcolumns => (and_iff_right ?_).symm
        rintro rfl
        cases mapM_eq_ok_iff.mp hcolumns
  cases hf : request.fields with
  | nothing =>
    cases ht : request.table with
    | byName name => simp [checkCreation, plannedColumns, hf, ht]
    | byValue table =>
      have htypes : forM table.columns checkType = .ok () ↔
          ∀ column ∈ table.columns, MySql.isKnownType column.type = true :=
        forM_eq_ok_iff.trans (forall₂_congr fun _ _ => checkType_eq_ok_iff)
      by_cases hempty : table.columns = []
      · simp [checkCreation, plannedColumns, hf, ht, hempty]
      · simp [checkCreation, plannedColumns, hf, ht, hempty, htypes]
  | column reference =>
    have hone := hdefined (.column reference)
    cases ht : request.table <;> simpa only [checkCreation, plannedColumns, hf, ht] using hone
  | columns references =>
    have hseveral := hdefined (.columns references)
    cases ht : request.table <;> simpa only [checkCreation, plannedColumns, hf, ht] using hseveral
  | _ => cases ht : request.table <;> simp [checkCreation, plannedColumns, hf, ht]

theorem fitCreation_eq_ok_iff : fitCreation request = .ok () ↔
    ∃ columns, plannedColumns request = .ok columns ∧ (columns.map Column.name).Nodup := by
  rw [fitCreation, bind_eq_ok_iff]
  refine exists_congr fun columns => and_congr_right fun _ => ?_
  have hnames : firstRepeated? [] (columns.map Column.name) = none ↔
      (columns.map Column.name).Nodup := by
    rw [firstRepeated?_eq_none_iff]
    exact and_iff_left fun _ _ => List.not_mem_nil
  rw [← hnames]
  cases firstRepeated? [] (columns.map Column.name) <;> simp

theorem creation_checks_iff :
    checkCreation request.table request.fields = .ok () ∧ fitCreation request = .ok () ↔
    ∃ columns, plannedColumns request = .ok columns ∧ AreCreatable columns := by
  rw [checkCreation_eq_ok_iff, fitCreation_eq_ok_iff]
  constructor
  · rintro ⟨⟨columns, hplanned, hne, hknown⟩, found, hfound, hdistinct⟩
    cases hplanned.symm.trans hfound
    exact ⟨columns, hplanned, hne, hknown, hdistinct⟩
  · rintro ⟨columns, hplanned, h⟩
    exact ⟨⟨columns, hplanned, h.nonempty, h.known⟩, columns, hplanned, h.distinct⟩

/-- A request for a new table is valid when its name is free and not blank, and its columns make up
a table. -/
theorem validate_createTable_iff
    (hm : Method.ofText request.method = .ok (.createTable temporary guarded)) :
    (∃ resolved, request.validate catalog = .ok resolved) ↔
      catalog.isOpen = true ∧ Text.trim request.table.name ≠ "" ∧
        catalog.table? request.table.name = none ∧ ∃ columns, plannedColumns request = .ok columns ∧
        AreCreatable columns := by
  have hresolve :
    ∀ found, resolveTable catalog (.createTable temporary guarded) request.table = .ok found ↔
      found = none ∧ Text.trim request.table.name ≠ "" ∧
        catalog.table? request.table.name = none := by
    intro found
    rw [resolveTable]
    by_cases hblank : Text.trim request.table.name = ""
    · simp [hblank]
    · cases hknown : catalog.table? request.table.name with
      | some table => simp [hblank]
      | none =>
        constructor
        · intro h
          simp only [String.isEmpty_iff, hblank, if_false, Option.isSome_none,
            Bool.false_eq_true] at h
          cases h
          exact ⟨rfl, hblank, rfl⟩
        · rintro ⟨rfl, -, -⟩
          simp [hblank]
  have hchecks : checkShape (.createTable temporary guarded) request = .ok () ∧
      checkSchema catalog ⟨.createTable temporary guarded, none⟩ request = .ok () ↔
      ∃ columns, plannedColumns request = .ok columns ∧ AreCreatable columns := by
    -- Creating a table takes no modifier that these checks look at.
    have hpredicate :
        checkPredicate (.createTable temporary guarded) request.modifiers = .ok () := by
      rw [checkPredicate]
      split <;> rfl
    have hlimit : fitLimit (.createTable temporary guarded) request.modifiers = .ok () := by
      rw [fitLimit]
      split <;> rfl
    have horder : ∀ reference,
        fitOrder false ⟨.createTable temporary guarded, none⟩ reference = .ok () := by
      intro reference
      cases reference <;> rfl
    rw [← creation_checks_iff, checkShape_eq_ok_iff, checkSchema_eq_ok_iff]
    exact ⟨fun h => ⟨h.1.1, h.2.1⟩, fun h => ⟨⟨h.1, hpredicate⟩, h.2, hlimit, horder _, horder _⟩⟩
  constructor
  · rintro ⟨⟨method, found⟩, h⟩
    obtain ⟨hr, hshape, hschema⟩ := validate_eq_ok_iff.mp h
    obtain ⟨hopen, hmethod, hfound⟩ := resolve_eq_ok_iff.mp hr
    cases hm.symm.trans hmethod
    obtain ⟨rfl, hname, hfree⟩ := (hresolve found).mp hfound
    exact ⟨hopen, hname, hfree, hchecks.mp ⟨hshape, hschema⟩⟩
  · rintro ⟨hopen, hname, hfree, hcolumns⟩
    obtain ⟨hshape, hschema⟩ := hchecks.mpr hcolumns
    have hr : request.resolve catalog = .ok ⟨.createTable temporary guarded, none⟩ :=
      resolve_eq_ok_iff.mpr ⟨hopen, hm, (hresolve none).mpr ⟨rfl, hname, hfree⟩⟩
    exact ⟨_, validate_eq_ok_iff.mpr ⟨hr, hshape, hschema⟩⟩

/-! ### Tables that are created from texts -/

/-- Fields that are nothing but texts of definitions. -/
inductive DefinedBy : Fields → List String → Prop
  | one (text : String) : DefinedBy (.column (.byName text)) [text]
  | several (texts : List String) : DefinedBy (.columns (texts.map .byName)) texts

variable {fields : Fields} {texts pieces : List String} {references : List ColumnRef}

theorem splitDefinitions_eq_ok_iff {text : String} :
    (ColumnRef.byName text).splitDefinitions = .ok references ↔
    ∃ list, Definition.splitList text = .ok list ∧ list ≠ [] ∧ references = list.map .byName := by
  rw [ColumnRef.splitDefinitions]
  cases Definition.splitList text with
  | error fault => simp
  | ok list =>
    cases list with
    | nil => simp
    | cons piece rest => simp [eq_comm]

theorem exists_lists_of_mapM {parts : List (List ColumnRef)}
    (h : (texts.map ColumnRef.byName).mapM ColumnRef.splitDefinitions = .ok parts) :
    ∃ lists, texts.mapM Definition.splitList = .ok lists ∧
      parts = lists.map (List.map .byName) := by
  induction texts generalizing parts with
  | nil =>
    cases h
    exact ⟨[], rfl, rfl⟩
  | cons text rest ih =>
    rw [List.map_cons, List.mapM_cons] at h
    obtain ⟨first, hfirst, h⟩ := bind_eq_ok_iff.mp h
    obtain ⟨others, hothers, h⟩ := bind_eq_ok_iff.mp h
    cases h
    obtain ⟨list, hlist, -, rfl⟩ := splitDefinitions_eq_ok_iff.mp hfirst
    obtain ⟨lists, hlists, rfl⟩ := ih hothers
    exact ⟨list :: lists, by rw [List.mapM_cons, hlist, ok_bind, hlists]; rfl, rfl⟩

/-- The definitions of such fields are the pieces of the texts, one text after the other. -/
theorem exists_lists_of_definitions (hf : DefinedBy fields texts)
    (h : definitions fields = .ok references) :
    ∃ lists, texts.mapM Definition.splitList = .ok lists ∧
      references = lists.flatten.map .byName := by
  cases hf with
  | one text =>
    obtain ⟨list, hlist, -, rfl⟩ := splitDefinitions_eq_ok_iff.mp h
    refine ⟨[list], ?_, ?_⟩
    · rw [List.mapM_cons, hlist]
      rfl
    · rw [List.flatten_singleton]
  | several =>
    obtain ⟨parts, hparts, rfl⟩ := map_eq_ok_iff.mp h
    obtain ⟨lists, hlists, rfl⟩ := exists_lists_of_mapM hparts
    exact ⟨lists, hlists, by rw [List.map_flatten]⟩

theorem DefinedBy.given (h : DefinedBy fields texts) :
    (∃ column, fields = .column column) ∨ ∃ columns, fields = .columns columns := by
  cases h with
  | one text => exact .inl ⟨_, rfl⟩
  | several => exact .inr ⟨_, rfl⟩

/-- The plan of a new table reads the definitions that are given. -/
theorem plannedColumns_of_given
    (hf : (∃ column, request.fields = .column column) ∨
      ∃ columns, request.fields = .columns columns) :
    request.plannedColumns = definitions request.fields >>= List.mapM ColumnRef.toColumn := by
  rw [Request.plannedColumns]
  rcases hf with ⟨column, hf⟩ | ⟨columns, hf⟩ <;> cases request.table <;> rw [hf]

theorem definitionTexts_of_given
    (hf : (∃ column, request.fields = .column column) ∨
      ∃ columns, request.fields = .columns columns) :
    request.definitionTexts = definitions request.fields >>= List.mapM ColumnRef.definition := by
  rw [Request.definitionTexts]
  rcases hf with ⟨column, hf⟩ | ⟨columns, hf⟩ <;> rw [hf]

theorem DefinedBy.plannedColumns (h : DefinedBy request.fields texts) : request.plannedColumns =
    definitions request.fields >>= List.mapM ColumnRef.toColumn :=
  plannedColumns_of_given h.given

theorem DefinedBy.definitionTexts (h : DefinedBy request.fields texts) : request.definitionTexts =
    definitions request.fields >>= List.mapM ColumnRef.definition :=
  definitionTexts_of_given h.given

theorem mapM_toColumn_byName : (pieces.map ColumnRef.byName).mapM ColumnRef.toColumn =
    pieces.mapM Column.ofDefinition :=
  mapM_eq_of_forall₂ (List.forall₂_map_left_iff.mpr (List.forall₂_same.mpr fun _ _ => rfl))

/-- A piece of a list that can be read is written as it stands. -/
theorem mapM_definition_byName (hitems : ∀ piece ∈ pieces, Definition.IsItem piece)
    (hchecked : ∀ piece ∈ pieces, checkDefinition (.byName piece) = .ok ()) :
    (pieces.map ColumnRef.byName).mapM ColumnRef.definition = .ok pieces := by
  refine mapM_eq_ok_iff.mpr (List.forall₂_map_left_iff.mpr
    (List.forall₂_same.mpr fun piece hp => ?_))
  obtain ⟨column, hread, -⟩ := checkDefinition_eq_ok_iff.mp (hchecked piece hp)
  refine map_eq_ok_iff.mpr ⟨column, hread, ?_⟩
  rw [Text.trim, (hitems piece hp).trimmed, String.ofList_toList]

/-- A valid request that creates a table of a name from texts is written with one list of
definitions.  The list is cut into the same pieces as the texts, each of which was checked, and
these pieces make up the table: its columns are the planned ones, and the engine knows their
types. -/
theorem createTable_text {name : String} (h : request.validate catalog = .ok resolved)
    (hm : resolved.method = .createTable temporary guarded) (hname : request.table = .byName name)
    (hf : DefinedBy request.fields texts) :
    ∃ lists columns list, texts.mapM Definition.splitList = .ok lists ∧
      definitions request.fields = .ok (lists.flatten.map .byName) ∧
      (∀ piece ∈ lists.flatten, checkDefinition (.byName piece) = .ok ()) ∧
      request.text catalog =
        .ok ("create " ++ temporaryWord (temporary || request.modifiers.temporary) ++
          "table " ++ MySql.quoteIdentifier name ++ " " ++
          (if guarded || !request.modifiers.clobber then "if not exists " else "") ++
          "(" ++ list ++ ");") ∧
      Definition.splitList list = .ok lists.flatten ∧
      plannedColumns request = .ok columns ∧
      Table.ofDefinitions name lists.flatten =
        .ok { name, columns := columns.map (Column.ownedBy · name) } ∧
      ∀ column ∈ columns, MySql.baseType column.type ∈ MySql.dataTypes := by
  obtain ⟨hr, hshape, hschema⟩ := validate_eq_ok_iff.mp h
  have hcreation : checkCreation request.table request.fields = .ok () := by
    have hfields := (checkShape_eq_ok_iff.mp hshape).1
    rwa [hm] at hfields
  have hfit : fitCreation request = .ok () := by
    have hfields := (checkSchema_eq_ok_iff.mp hschema).1
    simpa only [fitFields, hm] using hfields
  obtain ⟨references, hdefinitions, hchecked⟩ := definitions_of_checkCreation hcreation hf.given
  obtain ⟨lists, hlists, rfl⟩ := exists_lists_of_definitions hf hdefinitions
  obtain ⟨columns, hplanned, hcreatable⟩ := creation_checks_iff.mp ⟨hcreation, hfit⟩
  have hpieces : ∀ piece ∈ lists.flatten, checkDefinition (.byName piece) = .ok () :=
    List.forall_mem_map.mp hchecked
  have hitems : ∀ piece ∈ lists.flatten, Definition.IsItem piece := by
    intro piece hp
    obtain ⟨list, hlist, hp⟩ := List.mem_flatten.mp hp
    obtain ⟨text, -, hsplit⟩ := exists_of_mem_mapM hlists hlist
    exact Definition.isItem_of_splitList hsplit hp
  have hread : lists.flatten.mapM Column.ofDefinition = .ok columns := by
    rw [← mapM_toColumn_byName, ← hplanned, hf.plannedColumns, hdefinitions, ok_bind]
  have htexts : definitionTexts request = .ok lists.flatten := by
    rw [hf.definitionTexts, hdefinitions, ok_bind, mapM_definition_byName hitems hpieces]
  have hstatement : statementOf resolved request =
      .ok (.createTable (request.createsTemporary temporary) (guarded || !request.modifiers.clobber)
        (.table name) lists.flatten) := by
    simp only [statementOf, hm, htexts, ok_bind, hname, TableRef.target]
    rfl
  have htemporary : request.createsTemporary temporary =
      (temporary || request.modifiers.temporary) := by
    rw [createsTemporary, hname, Bool.or_false]
  refine ⟨lists, columns, ", ".intercalate lists.flatten, hlists, hdefinitions, hpieces, ?_,
    Definition.splitList_intercalate hitems, hplanned,
    Table.ofDefinitions_eq_ok_iff.mpr ⟨columns, hread, hcreatable.distinct, rfl⟩,
    fun column hc => ?_⟩
  · rw [text_of_resolve hr hstatement, htemporary, Statement.text_createTable, String.append_assoc,
      Target.text]
    rfl
  · have hknown := hcreatable.known column hc
    rwa [MySql.isKnownType, List.contains_iff_mem] at hknown

/-- A list in two texts, whose commas stand between definitions, in brackets, in a name, in a
default and in a comment. -/
theorem createTable_text_commas :
    let texts := ["id int primary key, note varchar(20) default 'x, (y' comment 'one, two'",
      "\x60c,d\x60 decimal(10, 2) unsigned"]
    let request : Request :=
      { method := "create temporary table if not exists", table := .byName "a\x60b"
        fields := .columns (texts.map .byName), modifiers := { clobber := true } }
    let catalog : Catalog := ⟨true, []⟩
    ∃ lists columns list, texts.mapM Definition.splitList = .ok lists ∧
      definitions request.fields = .ok (lists.flatten.map .byName) ∧
      (∀ piece ∈ lists.flatten, checkDefinition (.byName piece) = .ok ()) ∧
      request.text catalog =
        .ok ("create " ++ temporaryWord (true || request.modifiers.temporary) ++
          "table " ++ MySql.quoteIdentifier "a\x60b" ++ " " ++
          (if true || !request.modifiers.clobber then "if not exists " else "") ++
          "(" ++ list ++ ");") ∧
      Definition.splitList list = .ok lists.flatten ∧
      plannedColumns request = .ok columns ∧
      Table.ofDefinitions "a\x60b" lists.flatten =
        .ok { name := "a\x60b", columns := columns.map (Column.ownedBy · "a\x60b") } ∧
      ∀ column ∈ columns, MySql.baseType column.type ∈ MySql.dataTypes := by
  intro texts request catalog
  have h : request.validate catalog = .ok ⟨.createTable true true, none⟩ := by decide +kernel
  exact createTable_text h rfl rfl (.several texts)

/-! ### Joins -/

variable {left right joined : Table} {on : Expr} {direction : JoinDirection}
  {asName : Option String}

theorem trim_joinText_ne_empty :
    Text.trim (Table.joinText left right on direction asName) ≠ "" := by
  intro hblank
  have hmem : 'j' ∈ (Table.joinText left right on direction asName).toList := by
    simp [joinText_eq]
  have hnil : Text.trimChars (Table.joinText left right on direction asName).toList = [] := by
    rwa [Text.trim, String.ofList_eq_empty_iff] at hblank
  cases Text.trimChars_eq_nil_iff.mp hnil 'j' hmem

/-- Of the methods that do not read rows, a join in no catalog is good for creating and for
listing. -/
theorem method_of_resolve_join (hfree : catalog.table? request.table.name = none)
    (h : request.resolve catalog = .ok resolved) (hreads : resolved.method.readsRows = false) :
    (∃ temporary guarded, resolved.method = .createTable temporary guarded) ∨
      resolved.method = .showTables := by
  cases hneeds : resolved.method.needsTable with
  | true =>
    obtain ⟨table, hfound, -⟩ := table_of_resolve h hneeds hreads
    rw [hfree] at hfound
    cases hfound
  | false =>
    cases hm : resolved.method with
    | createTable temporary guarded => exact .inl ⟨temporary, guarded, rfl⟩
    | showTables => exact .inr rfl
    | _ =>
      rw [hm] at hneeds
      cases hneeds

/-- A join whose name is free in the catalog, in a request that neither reads rows nor lists tables:
such a request is valid when it creates a table, and its columns make up one.  Its statement then
has the text of the join for the name of the table. -/
theorem validate_join_iff (hjoin : Table.join left right on direction asName = .ok joined)
    (hfree : catalog.table? joined.name = none) (hvalue : request.table = .byValue joined)
    (hm : ∀ method, Method.ofText request.method = .ok method →
      method.readsRows = false ∧ method ≠ .showTables) :
    ((∃ resolved, request.validate catalog = .ok resolved) ↔
      catalog.isOpen = true ∧
        (∃ temporary guarded, Method.ofText request.method = .ok (.createTable temporary guarded)) ∧
        ∃ columns, plannedColumns request = .ok columns ∧ AreCreatable columns) ∧
    ∀ resolved, request.validate catalog = .ok resolved →
      ∃ temporary guarded texts, request.text catalog = .ok (Statement.text
        (.createTable temporary guarded (.join (Table.joinText left right on direction asName))
          texts)) := by
  obtain ⟨hjoined, hname⟩ := name_of_join hjoin
  have hreference : request.table.name = joined.name := by rw [hvalue, TableRef.name]
  have hcreates : ∀ resolved, request.validate catalog = .ok resolved →
      ∃ temporary guarded, resolved.method = .createTable temporary guarded := by
    intro resolved h
    obtain ⟨hr, -, -⟩ := validate_eq_ok_iff.mp h
    obtain ⟨-, hmethod, -⟩ := resolve_eq_ok_iff.mp hr
    obtain ⟨hreads, hlists⟩ := hm _ hmethod
    exact (method_of_resolve_join (hreference ▸ hfree) hr hreads).resolve_right hlists
  constructor
  · constructor
    · rintro ⟨resolved, h⟩
      obtain ⟨temporary, guarded, hcreate⟩ := hcreates resolved h
      obtain ⟨-, hmethod, -⟩ := resolve_eq_ok_iff.mp (validate_eq_ok_iff.mp h).1
      rw [hcreate] at hmethod
      obtain ⟨hopen, -, -, hcolumns⟩ := (validate_createTable_iff hmethod).mp ⟨resolved, h⟩
      exact ⟨hopen, ⟨temporary, guarded, hmethod⟩, hcolumns⟩
    · rintro ⟨hopen, ⟨temporary, guarded, hmethod⟩, hcolumns⟩
      refine (validate_createTable_iff hmethod).mpr ⟨hopen, ?_, hreference ▸ hfree, hcolumns⟩
      rw [hreference, hname]
      exact trim_joinText_ne_empty
  · intro resolved h
    obtain ⟨temporary, guarded, hcreate⟩ := hcreates resolved h
    obtain ⟨statement, hs, -, htext⟩ := exists_text_of_validate h
    simp only [statementOf, hcreate] at hs
    obtain ⟨texts, -, hs⟩ := bind_eq_ok_iff.mp hs
    cases hs
    have htarget : request.table.target =
        .join (Table.joinText left right on direction asName) := by
      rw [hvalue, TableRef.target, if_pos hjoined, hname]
    exact ⟨_, _, texts, by rw [htext, htarget]⟩

/-- A join under an alias, for a table of columns that are given as one text. -/
theorem validate_join_iff_texts :
    let users : Table :=
      { name := "users", columns := [{ name := "id", owner := some "users", type := "int" }] }
    let orders : Table :=
      { name := "orders",
        columns := [{ name := "user_id", owner := some "orders", type := "int" }] }
    let on : Expr := .comparison .eq (.column ⟨some "users", "id"⟩) (.column ⟨some "o", "user_id"⟩)
    let joinName := "users left join orders as \x60o\x60 on (users.id = o.user_id)"
    let joined : Table :=
      { name := joinName, joined := true
        columns :=
          [{ name := "users.id", owner := some joinName, type := "int" },
            { name := "o.user_id", owner := some joinName, type := "int" }] }
    let catalog : Catalog := ⟨true, [users, orders]⟩
    let request : Request :=
      { method := "create table", table := .byValue joined,
        fields := .column (.byName "a int, b text") }
    Table.join users orders on .left (some "o") = .ok joined ∧ catalog.table? joined.name = none ∧
    ((∃ resolved, request.validate catalog = .ok resolved) ↔
      catalog.isOpen = true ∧
        (∃ temporary guarded, Method.ofText request.method = .ok (.createTable temporary guarded)) ∧
        ∃ columns, plannedColumns request = .ok columns ∧ AreCreatable columns) ∧
    ∀ resolved, request.validate catalog = .ok resolved →
      ∃ temporary guarded texts, request.text catalog = .ok (Statement.text
        (.createTable temporary guarded (.join (Table.joinText users orders on .left (some "o")))
          texts)) := by
  intro users orders on joinName joined catalog request
  have hjoin : Table.join users orders on .left (some "o") = .ok joined := by decide +kernel
  have hfree : catalog.table? joined.name = none := by decide +kernel
  have hmethod : Method.ofText "create table" = .ok (.createTable false false) := by decide +kernel
  refine ⟨hjoin, hfree, validate_join_iff hjoin hfree rfl fun method h => ?_⟩
  cases hmethod.symm.trans h
  exact ⟨rfl, nofun⟩

/-- The join of two tables is taken for a new table. -/
theorem exists_createTable_join :
    let users : Table :=
      { name := "users", columns := [{ name := "id", owner := some "users", type := "int" }] }
    let orders : Table :=
      { name := "orders",
        columns := [{ name := "user_id", owner := some "orders", type := "int" }] }
    let on : Expr :=
      .comparison .eq (.column ⟨some "users", "id"⟩) (.column ⟨some "orders", "user_id"⟩)
    let catalog : Catalog := ⟨true, [users, orders]⟩
    ∃ joined, Table.join users orders on .inner none = .ok joined ∧
      catalog.table? joined.name = none ∧
      let request : Request := { method := "create table", table := .byValue joined }
      request.validate catalog = .ok ⟨.createTable false false, none⟩ ∧
        request.text catalog =
          .ok
            ("create table users inner join orders on (users.id = orders.user_id) if not exists " ++
            "(users.id int null, orders.user_id int null);") := by
  intro users orders on catalog
  let joinName := "users inner join orders on (users.id = orders.user_id)"
  refine ⟨{ name := joinName, joined := true
            columns :=
              [{ name := "users.id", owner := some joinName, type := "int" },
                { name := "orders.user_id", owner := some joinName, type := "int" }] },
    ?_, ?_, ?_, ?_⟩
  all_goals decide +kernel

end SchemaQuery.Request
