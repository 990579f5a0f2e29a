import SchemaQuery.Proofs.Request.Validation
import SchemaQuery.Request.Statement

/-! Requests that pass validation have a statement.  Validation and rendering look up the same
columns and read the same definitions, each for itself; every look-up and every reading of the
second is one that the first has made. -/

namespace SchemaQuery

namespace Statement

/-! ### Texts -/

theorem text_select (distinct : Bool) (projection : Projection) (target : Target)
    (clauses : Clauses) : (select distinct projection target clauses).text =
      "select " ++ (if distinct then "distinct " else "") ++ projection.text ++ " from " ++
        target.text ++ clauses.text ++ ";" := rfl

theorem text_insert (target : Target) (values : List (String × Value)) :
    (insert target values).text =
      "insert into " ++ target.text ++ " (" ++
        ", ".intercalate (values.map fun pair => columnText pair.1) ++ ") values (" ++
        ", ".intercalate (values.map fun pair => MySql.literal pair.2) ++ ")" ++ ";" := rfl

theorem text_update (target : Target) (values : List (String × Value)) (clauses : Clauses) :
    (update target values clauses).text =
      "update " ++ target.text ++ " set " ++ ", ".intercalate (values.map assignment) ++
        clauses.text ++ ";" := rfl

theorem text_createTable (temporary guarded : Bool) (target : Target) (definitions : List String) :
    (createTable temporary guarded target definitions).text =
      "create " ++ temporaryWord temporary ++ "table " ++ target.text ++ " " ++
        (if guarded then "if not exists " else "") ++
        "(" ++ ", ".intercalate definitions ++ ")" ++ ";" := rfl

theorem text_addConstraint (target : Target) (constraint : MySql.NewConstraint) :
    (addConstraint target constraint).text =
      "alter table " ++ target.text ++ " " ++ constraint.clause ++ ";" := rfl

theorem text_dropConstraint (target : Target) (constraint : Constraint) :
    (dropConstraint target constraint).text =
      "alter table " ++ target.text ++ " " ++ MySql.dropClause constraint ++ ";" := rfl

/-- Whether a statement creates, drops or alters something. -/
def isDefinition : Statement → Bool
  | .createTable _ _ _ _ | .dropTable _ _ | .renameTable _ _ | .addColumn _ _ _ | .dropColumn _ _
  | .alterColumn _ _ _ | .addConstraint _ _ | .dropConstraint _ _ => true
  | _ => false

theorem char_append {a b : String} {place : Nat} {c : Char} (h : a.toList[place]? = some c) :
    (a ++ b).toList[place]? = some c := by
  rw [String.toList_append, List.getElem?_append_left (List.getElem?_eq_some_iff.mp h).1, h]

/-- Such a statement begins with `create`, `drop` or `alter`, and so describes nothing. -/
theorem text_ne_describeText {statement : Statement} (h : statement.isDefinition = true)
    (name : String) : describeText name ≠ statement.text := by
  have hdescribe : (describeText name).toList[1]? = some 'e' := char_append (char_append rfl)
  have hsecond : statement.text.toList[1]? = some 'r' ∨ statement.text.toList[1]? = some 'l' := by
    cases statement with
    | createTable =>
      left
      iterate 9 refine char_append ?_
      rfl
    | dropTable =>
      left
      iterate 5 refine char_append ?_
      rfl
    | renameTable | dropColumn | addConstraint | dropConstraint =>
      right
      iterate 4 refine char_append ?_
      rfl
    | addColumn =>
      right
      iterate 5 refine char_append ?_
      rfl
    | alterColumn =>
      right
      iterate 6 refine char_append ?_
      rfl
    | _ => cases h
  intro he
  rw [← he, hdescribe] at hsecond
  obtain h | h := hsecond <;> cases h

end Statement

end SchemaQuery

namespace SchemaQuery.Request

variable {catalog : Catalog} {request : Request} {resolved : Resolved} {table : Table}

/-! ### Clauses and projections -/

theorem exists_columnName {reference : ColumnRef}
    (h : ∃ column, table.resolve reference = .ok column) :
    ∃ name, columnName table reference = .ok name :=
  exists_map_eq_ok_iff.mpr h

/-- A column to group or order by that fits the schema has a key. -/
theorem exists_orderKey {uses : Bool} {reference : Option ColumnRef}
    (ht : resolved.table = .ok table) (h : fitOrder uses resolved reference = .ok ()) :
    ∃ key, orderKey uses table reference = .ok key := by
  cases reference with
  | none => exact ⟨none, rfl⟩
  | some reference =>
    cases uses with
    | false => exact ⟨none, rfl⟩
    | true =>
      simp only [fitOrder, ht, ok_bind, if_true, seqRight_eq_ok_iff] at h
      exact exists_map_eq_ok_iff.mpr h.1

theorem exists_clauses (ht : resolved.table = .ok table)
    (h : checkSchema catalog resolved request = .ok ()) :
    ∃ found, clauses resolved.method table request.modifiers = .ok found := by
  obtain ⟨-, -, hgroup, horder⟩ := checkSchema_eq_ok_iff.mp h
  obtain ⟨groupBy, hg⟩ := exists_orderKey ht hgroup
  obtain ⟨orderBy, ho⟩ := exists_orderKey ht horder
  exact ⟨_, by rw [clauses, hg, ok_bind, ho, ok_bind]; rfl⟩

/-- A column that has to exist unless the reference stands for all columns. -/
theorem exists_single {reference : ColumnRef} {whole : Projection} {made : String → Projection}
    (h : (if reference.isAll then pure ()
      else table.resolve reference *> pure () : Except Error Unit) = .ok ()) :
    ∃ found, (if reference.isAll then .ok whole else (columnName table reference).map made) =
      .ok found := by
  by_cases hall : reference.isAll = true
  · exact ⟨whole, if_pos hall⟩
  · rw [if_neg hall] at h ⊢
    exact exists_map_eq_ok_iff.mpr (exists_columnName (seqRight_eq_ok_iff.mp h).1)

theorem exists_several {references : List ColumnRef}
    (h : (references.forM fun reference => (table.resolve reference).map fun _ => ()) = .ok ()) :
    ∃ found, (references.mapM (columnName table)).map Projection.columns = .ok found := by
  refine exists_map_eq_ok_iff.mpr (exists_mapM_eq_ok_iff.mpr fun reference hr => ?_)
  obtain ⟨column, hc, -⟩ := map_eq_ok_iff.mp (forM_eq_ok_iff.mp h reference hr)
  exact exists_columnName ⟨column, hc⟩

/-- The columns of a query that fits the schema can be looked up again. -/
theorem exists_projection (ht : resolved.table = .ok table) (hm : resolved.method.readsRows = true)
    (h : fitFields catalog resolved request = .ok ()) :
    ∃ found, projection resolved.method table request.fields = .ok found := by
  obtain ⟨method, found⟩ := resolved
  cases method with
  | select | distinct =>
    cases hf : request.fields with
    | column reference =>
      simp only [fitFields, fitQuery, hf, ht, ok_bind] at h
      exact exists_single h
    | columns references =>
      simp only [fitFields, fitQuery, hf, ht, ok_bind] at h
      exact exists_several h
    | _ => exact ⟨_, rfl⟩
  | count =>
    cases hf : request.fields with
    | column reference =>
      simp only [fitFields, fitQuery, hf, ht, ok_bind] at h
      exact exists_single h
    | _ => exact ⟨_, rfl⟩
  | _ => cases hm

/-! ### Values and definitions -/

theorem exists_namedValues {pairs : List (ColumnRef × Value)}
    (h : ∀ pair ∈ pairs, ∃ column, table.resolve pair.1 = .ok column) :
    ∃ values, namedValues table (.values pairs) = .ok values :=
  exists_mapM_eq_ok_iff.mpr fun pair hp => exists_map_eq_ok_iff.mpr (exists_columnName (h pair hp))

theorem resolve_of_fitInsert {pairs : List (ColumnRef × Value)}
    (h : fitInsert table pairs = .ok ()) :
    ∀ pair ∈ pairs, ∃ column, table.resolve pair.1 = .ok column := by
  obtain ⟨given, hg, -⟩ := bind_eq_ok_iff.mp h
  intro pair hp
  exact exists_map_eq_ok_iff.mp (exists_mapM_eq_ok_iff.mp ⟨given, hg⟩ pair hp)

/-- A reference that defines a column has a definition. -/
theorem exists_definition {reference : ColumnRef} (h : checkDefinition reference = .ok ()) :
    ∃ definition, reference.definition = .ok definition := by
  obtain ⟨column, hc, -⟩ := bind_eq_ok_iff.mp h
  cases reference with
  | byName text => exact exists_map_eq_ok_iff.mpr ⟨column, hc⟩
  | byValue column => exact ⟨column.definition, rfl⟩

theorem definitions_of_checkCreation {reference : TableRef} {fields : Fields}
    (h : checkCreation reference fields = .ok ())
    (hf : (∃ column, fields = .column column) ∨ ∃ columns, fields = .columns columns) :
    ∃ references, definitions fields = .ok references ∧
      ∀ found ∈ references, checkDefinition found = .ok () := by
  have checked : (do
      let references ← definitions fields
      if references.isEmpty then throw (.shape .noDefinitions)
      references.forM checkDefinition) = (.ok () : Except Error Unit) := by
    rcases hf with ⟨column, rfl⟩ | ⟨columns, rfl⟩ <;> cases reference <;> exact h
  obtain ⟨references, hd, h⟩ := bind_eq_ok_iff.mp checked
  split at h
  · cases h
  · exact ⟨references, hd, forM_eq_ok_iff.mp h⟩

/-- The definitions of a new table that was checked can be written. -/
theorem exists_definitionTexts (hshape : checkCreation request.table request.fields = .ok ())
    (hfit : fitCreation request = .ok ()) : ∃ texts, definitionTexts request = .ok texts := by
  have written (hf : (∃ column, request.fields = .column column) ∨
      ∃ columns, request.fields = .columns columns) :
      ∃ texts, (definitions request.fields >>= List.mapM ColumnRef.definition) = .ok texts := by
    obtain ⟨references, hd, hall⟩ := definitions_of_checkCreation hshape hf
    exact exists_bind_eq_ok_iff.mpr ⟨references, hd,
      exists_mapM_eq_ok_iff.mpr fun reference hr => exists_definition (hall reference hr)⟩
  unfold definitionTexts
  split
  case h_1 column hf => exact written (.inl ⟨column, hf⟩)
  case h_2 columns hf => exact written (.inr ⟨columns, hf⟩)
  case h_3 =>
    obtain ⟨columns, hc, -⟩ := bind_eq_ok_iff.mp hfit
    exact exists_map_eq_ok_iff.mpr ⟨columns, hc⟩

theorem fitNewColumn_eq_ok_iff {reference : ColumnRef} :
    fitNewColumn table (.column reference) = .ok () ↔
      ∃ column, reference.toColumn = .ok column ∧ table.column? column.name = none := by
  rw [fitNewColumn, bind_eq_ok_iff]
  refine exists_congr fun column => and_congr_right fun _ => ?_
  cases table.column? column.name <;> simp

theorem fitPlace_eq_ok_iff {after : Option ColumnRef} : fitPlace table after = .ok () ↔
    ∀ place, after = some place → place.isFirst = false →
      ∃ column, table.resolve place = .ok column := by
  cases after with
  | none => simp [fitPlace]
  | some place => cases hfirst : place.isFirst <;> simp [fitPlace, hfirst, map_eq_ok_iff]

theorem fitAddition_eq_ok_iff {reference : ColumnRef} {after : Option ColumnRef} :
    fitAddition table (.column reference) after = .ok () ↔
      (∃ column, reference.toColumn = .ok column ∧ table.column? column.name = none) ∧
        ∀ place, after = some place → place.isFirst = false →
          ∃ column, table.resolve place = .ok column := by
  rw [fitAddition, bind_eq_ok_iff, ← fitNewColumn_eq_ok_iff, ← fitPlace_eq_ok_iff]
  exact ⟨fun ⟨_, hnew, hplace⟩ => ⟨hnew, hplace⟩, fun ⟨hnew, hplace⟩ => ⟨(), hnew, hplace⟩⟩

/-- The place of a new column that fits the schema can be found. -/
theorem exists_position {reference : ColumnRef} {after : Option ColumnRef}
    (h : fitAddition table (.column reference) after = .ok ()) :
    ∃ place, position table after = .ok place := by
  obtain ⟨-, hafter⟩ := fitAddition_eq_ok_iff.mp h
  cases after with
  | none => exact ⟨.last, rfl⟩
  | some place =>
    simp only [position]
    cases hfirst : place.isFirst with
    | true => exact ⟨.first, if_pos rfl⟩
    | false =>
      rw [if_neg (by decide)]
      exact exists_map_eq_ok_iff.mpr (exists_columnName (hafter place rfl hfirst))

theorem exists_newConstraint {kind : ConstraintKind} {reference : ColumnRef} {modifiers : Modifiers}
    (hshape : checkAddition kind (.column reference) modifiers = .ok ())
    (hfit : fitConstraint catalog table kind reference modifiers = .ok ()) :
    ∃ found, newConstraint table kind reference modifiers = .ok found := by
  obtain ⟨column, hc, -⟩ := bind_eq_ok_iff.mp hfit
  unfold newConstraint
  rw [hc, ok_bind]
  split
  case h_1 foreign hforeign =>
    simp only [checkAddition, hforeign, if_true] at hshape
    obtain ⟨parts, hp, -⟩ := map_eq_ok_iff.mp hshape
    rw [hp]
    exact ⟨_, rfl⟩
  case h_2 hforeign => simp [checkAddition, hforeign] at hshape
  case h_3 => exact ⟨_, rfl⟩

/-! ### Statements -/

theorem checkValues_eq_ok_iff {method : Method} {fields : Fields} :
    checkValues method fields = .ok () ↔ ∃ pairs, fields = .values pairs ∧ pairs ≠ [] := by
  unfold checkValues
  split <;> simp_all

/-- Altering names a column and defines its new form, in one of two ways. -/
theorem checkAlteration_eq_ok_iff {fields : Fields} {modifiers : Modifiers} :
    checkAlteration fields modifiers = .ok () ↔
      ∃ old new, (fields = .change old new ∨
        fields = .column old ∧ modifiers.newDefinition = some new) ∧
          checkDefinition new = .ok () := by
  unfold checkAlteration
  split
  case h_1 old => cases modifiers.newDefinition <;> simp
  case h_2 => simp
  case h_3 hcolumn hchange =>
    constructor
    · exact fun h => nomatch h
    · rintro ⟨old, new, hf | ⟨hf, -⟩, -⟩
      · exact absurd hf (hchange old new)
      · exact absurd hf (hcolumn old)

theorem resolve_of_fitAlteration {old : ColumnRef} {new : Option ColumnRef}
    (h : fitAlteration table old new = .ok ()) : ∃ column, table.resolve old = .ok column := by
  obtain ⟨column, hc, -⟩ := bind_eq_ok_iff.mp h
  exact ⟨column, hc⟩

/-- A checked request has a statement.  Each method uses what its own checks have found. -/
theorem exists_statementOf (hr : request.resolve catalog = .ok resolved)
    (hshape : checkShape resolved.method request = .ok ())
    (hschema : checkSchema catalog resolved request = .ok ()) :
    ∃ statement, statementOf resolved request = .ok statement := by
  have hfields := (checkShape_eq_ok_iff.mp hshape).1
  have hfit := (checkSchema_eq_ok_iff.mp hschema).1
  have htable : resolved.method.needsTable = true → ∃ table, resolved.table = .ok table :=
    exists_table_of_resolve hr
  unfold statementOf
  cases hm : resolved.method with
  | select | distinct | count =>
    obtain ⟨table, ht⟩ := htable (by rw [hm]; rfl)
    obtain ⟨found, hp⟩ := exists_projection ht (by rw [hm]; rfl) hfit
    obtain ⟨parts, hc⟩ := exists_clauses ht hschema
    rw [hm] at hp hc
    exact ⟨_, by simp only [ht, ok_bind, hp, hc]; rfl⟩
  | insert =>
    obtain ⟨table, ht⟩ := htable (by rw [hm]; rfl)
    simp only [hm, checkFields, checkValues_eq_ok_iff] at hfields
    obtain ⟨pairs, hf, -⟩ := hfields
    simp only [fitFields, hm, hf, ht, ok_bind] at hfit
    obtain ⟨values, hv⟩ := exists_namedValues (resolve_of_fitInsert hfit)
    exact ⟨_, by simp only [ht, ok_bind, hf, hv]; rfl⟩
  | update =>
    obtain ⟨table, ht⟩ := htable (by rw [hm]; rfl)
    simp only [hm, checkFields, checkValues_eq_ok_iff] at hfields
    obtain ⟨pairs, hf, -⟩ := hfields
    simp only [fitFields, hm, hf, ht, ok_bind, forM_eq_ok_iff] at hfit
    obtain ⟨values, hv⟩ := exists_namedValues fun pair hp =>
      exists_map_eq_ok_iff.mp ⟨(), hfit pair hp⟩
    obtain ⟨parts, hc⟩ := exists_clauses ht hschema
    rw [hm] at hc
    exact ⟨_, by simp only [ht, ok_bind, hf, hv, hc]; rfl⟩
  | delete =>
    obtain ⟨table, ht⟩ := htable (by rw [hm]; rfl)
    obtain ⟨parts, hc⟩ := exists_clauses ht hschema
    rw [hm] at hc
    exact ⟨_, by simp only [ht, ok_bind, hc]; rfl⟩
  | createTable temporary guarded =>
    rw [hm] at hfields
    simp only [fitFields, hm] at hfit
    obtain ⟨texts, hd⟩ := exists_definitionTexts hfields hfit
    exact ⟨_, by simp only [hd, ok_bind]; rfl⟩
  | dropTable temporary => exact ⟨_, rfl⟩
  | renameTable =>
    rw [hm, checkFields] at hfields
    cases hf : request.fields with
    | column reference => exact ⟨_, rfl⟩
    | _ => rw [hf] at hfields; cases hfields
  | truncate | describe | showTables => exact ⟨_, rfl⟩
  | addColumn =>
    obtain ⟨table, ht⟩ := htable (by rw [hm]; rfl)
    rw [hm] at hfields
    cases hf : request.fields with
    | column reference =>
      simp only [checkFields, hf] at hfields
      simp only [fitFields, hm, hf, ht, ok_bind] at hfit
      obtain ⟨definition, hd⟩ := exists_definition hfields
      obtain ⟨place, hp⟩ := exists_position hfit
      exact ⟨_, by simp only [ht, ok_bind, hp, hd]; rfl⟩
    | _ => simp only [checkFields, hf] at hfields; cases hfields
  | dropColumn =>
    obtain ⟨table, ht⟩ := htable (by rw [hm]; rfl)
    rw [hm] at hfields
    cases hf : request.fields with
    | column reference =>
      simp only [fitFields, hm, hf, ht, ok_bind, seqRight_eq_ok_iff] at hfit
      obtain ⟨name, hn⟩ := exists_columnName hfit.1
      exact ⟨_, by simp only [ht, ok_bind, hn]; rfl⟩
    | _ => simp only [checkFields, hf] at hfields; cases hfields
  | alterColumn =>
    obtain ⟨table, ht⟩ := htable (by rw [hm]; rfl)
    simp only [hm, checkFields, checkAlteration_eq_ok_iff] at hfields
    obtain ⟨old, new, hf | ⟨hf, hnew⟩, hdefinition⟩ := hfields
    · simp only [fitFields, hm, hf, ht, ok_bind] at hfit
      obtain ⟨name, hn⟩ := exists_columnName (resolve_of_fitAlteration hfit)
      obtain ⟨definition, hd⟩ := exists_definition hdefinition
      exact ⟨_, by simp only [ht, ok_bind, hf, hn, hd]; rfl⟩
    · simp only [fitFields, hm, hf, ht, ok_bind] at hfit
      obtain ⟨name, hn⟩ := exists_columnName (resolve_of_fitAlteration hfit)
      obtain ⟨definition, hd⟩ := exists_definition hdefinition
      exact ⟨_, by simp only [ht, ok_bind, hf, hnew, hn, hd]; rfl⟩
  | addConstraint kind =>
    obtain ⟨table, ht⟩ := htable (by rw [hm]; rfl)
    simp only [hm, checkFields] at hfields
    cases hf : request.fields with
    | column reference =>
      rw [hf] at hfields
      simp only [fitFields, hm, hf, ht, ok_bind] at hfit
      obtain ⟨found, hn⟩ := exists_newConstraint hfields hfit
      exact ⟨_, by simp only [ht, ok_bind, hn]; rfl⟩
    | _ => simp only [checkAddition, hf] at hfields; cases hfields
  | dropConstraint =>
    rw [hm] at hfields
    cases hf : request.fields with
    | constraint found => exact ⟨_, rfl⟩
    | _ => simp only [checkFields, hf] at hfields; cases hfields

/-- A method that changes the schema has a statement that does so. -/
theorem isDefinition_of_statementOf {statement : Statement}
    (h : statementOf resolved request = .ok statement) (hm : resolved.method.changesSchema = true) :
    statement.isDefinition = true := by
  cases hmethod : resolved.method with
  | createTable temporary guarded =>
    simp only [statementOf, hmethod] at h
    obtain ⟨texts, -, h⟩ := bind_eq_ok_iff.mp h
    cases h
    rfl
  | dropTable temporary =>
    simp only [statementOf, hmethod] at h
    cases h
    rfl
  | renameTable | dropConstraint =>
    simp only [statementOf, hmethod] at h
    split at h <;> cases h
    rfl
  | addColumn =>
    simp only [statementOf, hmethod] at h
    obtain ⟨table, -, h⟩ := bind_eq_ok_iff.mp h
    split at h
    · obtain ⟨position, -, h⟩ := bind_eq_ok_iff.mp h
      obtain ⟨definition, -, h⟩ := bind_eq_ok_iff.mp h
      cases h
      rfl
    · cases h
  | dropColumn | addConstraint =>
    simp only [statementOf, hmethod] at h
    obtain ⟨table, -, h⟩ := bind_eq_ok_iff.mp h
    split at h
    · obtain ⟨part, -, h⟩ := bind_eq_ok_iff.mp h
      cases h
      rfl
    · cases h
  | alterColumn =>
    simp only [statementOf, hmethod] at h
    obtain ⟨table, -, h⟩ := bind_eq_ok_iff.mp h
    split at h
    · obtain ⟨column, -, h⟩ := bind_eq_ok_iff.mp h
      obtain ⟨definition, -, h⟩ := bind_eq_ok_iff.mp h
      cases h
      rfl
    · obtain ⟨column, -, h⟩ := bind_eq_ok_iff.mp h
      obtain ⟨definition, -, h⟩ := bind_eq_ok_iff.mp h
      cases h
      rfl
    · cases h
  | _ =>
    rw [hmethod] at hm
    cases hm

theorem statement_of_resolve (h : request.resolve catalog = .ok resolved) :
    request.statement catalog = statementOf resolved request := by
  rw [Request.statement, h]

theorem text_of_resolve {statement : Statement} (hr : request.resolve catalog = .ok resolved)
    (hs : statementOf resolved request = .ok statement) :
    request.text catalog = .ok statement.text := by
  rw [text, statement_of_resolve hr, hs]
  rfl

/-- Whatever the catalog and the request, validation leaves rendering nothing to fail on: the method
and the table come out as before, and the request has a statement with a text. -/
theorem exists_text_of_validate (h : request.validate catalog = .ok resolved) :
    ∃ statement, statementOf resolved request = .ok statement ∧
      request.statement catalog = .ok statement ∧ request.text catalog = .ok statement.text := by
  obtain ⟨hr, hshape, hschema⟩ := validate_eq_ok_iff.mp h
  obtain ⟨statement, hs⟩ := exists_statementOf hr hshape hschema
  have hstatement : request.statement catalog = .ok statement := (statement_of_resolve hr).trans hs
  exact ⟨statement, hs, hstatement, by rw [text, hstatement]; rfl⟩

/-- A foreign key from the orders to the users passes validation, and so has a text. -/
theorem exists_text_of_foreignKey :
    let users : Table :=
      { name := "users", columns := [{ name := "id", owner := some "users", type := "int" }] }
    let orders : Table :=
      { name := "orders",
        columns := [{ name := "user_id", owner := some "orders", type := "int" }] }
    let request : Request :=
      { method := "add foreign key", table := .byName "orders",
        fields := .column (.byName "user_id"),
        modifiers := { foreign := some (.byName "users.id") } }
    let resolved : Resolved := ⟨.addConstraint .foreign, some orders⟩
    request.validate ⟨true, [users, orders]⟩ = .ok resolved ∧
      ∃ statement, statementOf resolved request = .ok statement ∧
        request.statement ⟨true, [users, orders]⟩ = .ok statement ∧
        request.text ⟨true, [users, orders]⟩ = .ok statement.text :=
  ⟨rfl, exists_text_of_validate rfl⟩

end SchemaQuery.Request
