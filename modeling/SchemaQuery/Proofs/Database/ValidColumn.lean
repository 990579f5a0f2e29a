import SchemaQuery.Database.Operations
import SchemaQuery.Proofs.Database.Registry
import SchemaQuery.Proofs.Request.Creation

/-! Columns that can be added.  A database says of a reference whether the column that it defines
could be added to a table; it looks at the table and at the definition, without a request.
Validation reaches the same verdict in three passes, which resolve the table, check the shape of the
request and then the schema. -/

namespace SchemaQuery

namespace Request

variable {catalog : Catalog} {request : Request} {resolved : Resolved} {table : Table}
  {reference : ColumnRef}

/-- Whether a table has the column that a new one is to go after, if there is to be such a
column. -/
def HasPlace (table : Table) (after : Option ColumnRef) : Prop :=
  ∀ place, after = some place → place.isFirst = false → ∃ column, table.resolve place = .ok column

theorem resolveTable_of_known {method : Method} {target : TableRef} (hm : method.needsTable = true)
    (hr : method.readsRows = false) (hfound : catalog.table? target.name = some table) :
    resolveTable catalog method target = .ok (some table) := by
  unfold resolveTable
  rw [hfound]
  cases method with
  | createTable temporary guarded => cases hm
  | showTables => cases hm
  | select | distinct | count => cases hr
  | _ => cases target <;> simp [hr]

theorem checkShape_addColumn (hfields : request.fields = .column reference) :
    checkShape .addColumn request = .ok () ↔ checkDefinition reference = .ok () := by
  have hpredicate : checkPredicate .addColumn request.modifiers = .ok () := by
    cases hp : request.modifiers.predicate <;> simp [checkPredicate, hp, Method.takesWhere]
  rw [checkShape_eq_ok_iff, and_iff_left hpredicate, checkFields, hfields]

theorem checkSchema_addColumn (hfields : request.fields = .column reference) :
    checkSchema catalog ⟨.addColumn, some table⟩ request = .ok () ↔
      fitAddition table (.column reference) request.modifiers.after = .ok () := by
  have hlimit : fitLimit .addColumn request.modifiers = .ok () := by
    cases hl : request.modifiers.limit <;>
      simp [fitLimit, hl, Method.takesLimit, Method.takesOrderBy]
  have horder (column : Option ColumnRef) :
      fitOrder false ⟨.addColumn, some table⟩ column = .ok () := by
    cases column <;> rfl
  rw [checkSchema_eq_ok_iff, fitFields, hfields]
  exact and_iff_left ⟨hlimit, horder request.modifiers.groupBy, horder request.modifiers.orderBy⟩

/-- What it takes to add a column.  Of the modifiers only the position counts. -/
theorem validate_addColumn_eq_ok_iff (hmethod : Method.ofText request.method = .ok .addColumn)
    (hfields : request.fields = .column reference) : request.validate catalog = .ok resolved ↔
      catalog.isOpen = true ∧ ∃ table column, resolved = ⟨.addColumn, some table⟩ ∧
        catalog.table? request.table.name = some table ∧ reference.toColumn = .ok column ∧
        MySql.isKnownType column.type = true ∧ table.column? column.name = none ∧
        HasPlace table request.modifiers.after := by
  rw [validate_eq_ok_iff, resolve_eq_ok_iff, hmethod]
  constructor
  · rintro ⟨⟨hopen, hm, htable⟩, hshape, hschema⟩
    obtain ⟨method, found⟩ := resolved
    cases hm
    obtain ⟨_, -, -, hreads, -⟩ | ⟨table, hfound, rfl⟩ := table_of_resolveTable rfl htable
    · cases hreads
    obtain ⟨column, hcolumn, htype⟩ :=
      checkDefinition_eq_ok_iff.mp ((checkShape_addColumn hfields).mp hshape)
    obtain ⟨⟨_, hagain, hfree⟩, hplace⟩ :=
      fitAddition_eq_ok_iff.mp ((checkSchema_addColumn hfields).mp hschema)
    cases hcolumn.symm.trans hagain
    exact ⟨hopen, table, column, rfl, hfound, hcolumn, htype, hfree, hplace⟩
  · rintro ⟨hopen, table, column, rfl, hfound, hcolumn, htype, hfree, hplace⟩
    refine ⟨⟨hopen, rfl, resolveTable_of_known rfl rfl hfound⟩, ?_, ?_⟩
    · exact (checkShape_addColumn hfields).mpr
        (checkDefinition_eq_ok_iff.mpr ⟨column, hcolumn, htype⟩)
    · exact (checkSchema_addColumn hfields).mpr
        (fitAddition_eq_ok_iff.mpr ⟨⟨column, hcolumn, hfree⟩, hplace⟩)

end Request

namespace Database

variable {ε : Type} {engine : Engine ε} {database : Database ε} {name : String} {request : Request}
  {reference : ColumnRef}

theorem isValidColumn_eq_true_iff : database.isValidColumn name reference = true ↔
    ∃ table column, database.table? name = some table ∧ reference.toColumn = .ok column ∧
      MySql.isKnownType column.type = true ∧ table.column? column.name = none := by
  rw [isValidColumn]
  cases database.table? name with
  | none => simp
  | some table => cases reference.toColumn <;> simp

/-- While the connection is open, a column is valid for a table exactly when a request that adds it
there, without a position, passes every check. -/
theorem isValidColumn_iff_validate (hopen : database.isOpen engine = true)
    (hmethod : Method.ofText request.method = .ok .addColumn)
    (hfields : request.fields = .column reference)
    (hafter : request.modifiers.after = none) :
    database.isValidColumn request.table.name reference = true ↔
      ∃ resolved, request.validate (database.catalog engine) = .ok resolved := by
  have hplace (table : Table) : Request.HasPlace table request.modifiers.after := by
    simp [Request.HasPlace, hafter]
  rw [isValidColumn_eq_true_iff]
  simp only [Request.validate_addColumn_eq_ok_iff hmethod hfields]
  constructor
  · rintro ⟨table, column, hfound, hcolumn, htype, hfree⟩
    exact ⟨_, hopen, table, column, rfl, hfound, hcolumn, htype, hfree, hplace table⟩
  · rintro ⟨_, -, table, column, -, hfound, hcolumn, htype, hfree, -⟩
    exact ⟨table, column, hfound, hcolumn, htype, hfree⟩

/-- Definitions of columns for the users of the shop: two that can be added, two whose name is
taken, one of them with the name of the table in front, and two that define no column of a known
type. -/
theorem isValidColumn_iff_validate_shop :
    let request (definition : String) : Request :=
      { method := "add column", table := .byName "users", fields := .column (.byName definition) }
    shop.isOpen Script.engine = true ∧
      (∀ definition : String, shop.isValidColumn "users" (.byName definition) = true ↔
        ∃ resolved, (request definition).validate (shop.catalog Script.engine) = .ok resolved) ∧
      ["note text", "ID int", "id int", "users.id int", "note", "note texts"].map
        (fun definition => shop.isValidColumn "users" (.byName definition)) =
          [true, true, false, false, false, false] := by
  intro request
  have hopen : shop.isOpen Script.engine = true := by decide +kernel
  have hmethod : Method.ofText "add column" = .ok .addColumn := by decide +kernel
  refine ⟨hopen, fun definition => ?_, by decide +kernel⟩
  exact @isValidColumn_iff_validate _ _ _ (request definition) _ hopen hmethod rfl rfl

end Database

end SchemaQuery
