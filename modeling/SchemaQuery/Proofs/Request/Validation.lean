import SchemaQuery.Proofs.Catalog
import SchemaQuery.Proofs.Except
import SchemaQuery.Request.Validation

/-! What a valid request is known to have: an open connection, a method, a table for the methods
that need one, and for a new foreign key the column and the table that it joins. -/

namespace SchemaQuery.Request

variable {catalog : Catalog} {request : Request} {resolved : Resolved} {table : Table}

theorem validate_eq_ok_iff : request.validate catalog = .ok resolved ↔
    request.resolve catalog = .ok resolved ∧ checkShape resolved.method request = .ok () ∧
      checkSchema catalog resolved request = .ok () := by
  unfold validate
  rw [bind_eq_ok_iff]
  constructor
  · rintro ⟨found, hr, h⟩
    obtain ⟨⟨⟩, hshape, h⟩ := bind_eq_ok_iff.mp h
    obtain ⟨⟨⟩, hschema, h⟩ := bind_eq_ok_iff.mp h
    cases h
    exact ⟨hr, hshape, hschema⟩
  · rintro ⟨hr, hshape, hschema⟩
    exact ⟨resolved, hr, by rw [hshape, ok_bind, hschema]; rfl⟩

theorem checkShape_eq_ok_iff {method : Method} : checkShape method request = .ok () ↔
    checkFields method request = .ok () ∧ checkPredicate method request.modifiers = .ok () := by
  unfold checkShape
  rw [bind_eq_ok_iff]
  simp

theorem checkFields_of_validate (h : request.validate catalog = .ok resolved) :
    checkFields resolved.method request = .ok () :=
  (checkShape_eq_ok_iff.mp (validate_eq_ok_iff.mp h).2.1).1

theorem checkSchema_eq_ok_iff : checkSchema catalog resolved request = .ok () ↔
    fitFields catalog resolved request = .ok () ∧
      fitLimit resolved.method request.modifiers = .ok () ∧
      fitOrder resolved.method.takesGroupBy resolved request.modifiers.groupBy = .ok () ∧
      fitOrder resolved.method.takesOrderBy resolved request.modifiers.orderBy = .ok () := by
  unfold checkSchema
  simp only [bind_eq_ok_iff]
  simp

/-- The table of a method that needs one is the join that is to be read, or a table of the
catalog. -/
theorem table_of_resolveTable {method : Method} {reference : TableRef} {found : Option Table}
    (hm : method.needsTable = true) (h : resolveTable catalog method reference = .ok found) :
    (∃ table, reference = .byValue table ∧ table.joined = true ∧ method.readsRows = true ∧
      found = some table) ∨
    ∃ table, catalog.table? reference.name = some table ∧ found = some table := by
  unfold resolveTable at h
  extract_lets known at h
  have hknown (hk : known = .ok found) : ∃ table, catalog.table? reference.name = some table ∧
      found = some table := by
    cases ht : catalog.table? reference.name with
    | none =>
      simp only [known, ht] at hk
      cases hk
    | some table =>
      simp only [known, ht] at hk
      cases hk
      exact ⟨table, rfl, rfl⟩
  split at h
  case h_1 => cases hm
  case h_2 => cases hm
  case h_3 =>
    split at h
    case h_1 table =>
      split at h
      case isTrue hj =>
        cases h
        rw [Bool.and_eq_true] at hj
        exact .inl ⟨table, rfl, hj.1, hj.2, rfl⟩
      case isFalse => exact .inr (hknown h)
    case h_2 => exact .inr (hknown h)

theorem resolve_eq_ok_iff : request.resolve catalog = .ok resolved ↔
    catalog.isOpen = true ∧ Method.ofText request.method = .ok resolved.method ∧
      resolveTable catalog resolved.method request.table = .ok resolved.table? := by
  unfold resolve
  cases catalog.isOpen with
  | false => simp
  | true =>
    rw [if_pos rfl, bind_eq_ok_iff]
    constructor
    · rintro ⟨method, hm, h⟩
      obtain ⟨found, ht, h⟩ := bind_eq_ok_iff.mp h
      cases h
      exact ⟨rfl, hm, ht⟩
    · rintro ⟨-, hm, ht⟩
      exact ⟨resolved.method, hm, by rw [ht, ok_bind]; rfl⟩

/-- A method that needs a table has one once the request is resolved. -/
theorem exists_table_of_resolve (h : request.resolve catalog = .ok resolved)
    (hm : resolved.method.needsTable = true) : ∃ table, resolved.table = .ok table := by
  obtain ⟨-, -, ht⟩ := resolve_eq_ok_iff.mp h
  rw [Resolved.table]
  obtain ⟨table, -, -, -, hf⟩ | ⟨table, -, hf⟩ := table_of_resolveTable hm ht
  · exact ⟨table, by rw [hf]⟩
  · exact ⟨table, by rw [hf]⟩

/-- A method that needs a table and reads no rows has one of the catalog. -/
theorem table_of_resolve (h : request.resolve catalog = .ok resolved)
    (hm : resolved.method.needsTable = true) (hr : resolved.method.readsRows = false) :
    ∃ table, catalog.table? request.table.name = some table ∧ resolved.table = .ok table := by
  obtain ⟨-, -, ht⟩ := resolve_eq_ok_iff.mp h
  obtain ⟨table, -, -, hreads, -⟩ | ⟨table, hfound, hf⟩ := table_of_resolveTable hm ht
  · rw [hr] at hreads
    cases hreads
  · exact ⟨table, hfound, by rw [Resolved.table, hf]⟩

/-- What the schema has to have for a foreign key: another table with the column referred to, and a
name of moderate length if none is given. -/
theorem exists_of_fitForeign {target : Column} {reference : ColumnRef} {name : Option String}
    (h : fitForeign catalog table target reference name = .ok ()) :
    ∃ foreignTable foreignColumn, reference.splitQualified = .ok (foreignTable, foreignColumn) ∧
      foreignTable ≠ table.name ∧
      ∃ other referenced, catalog.table? foreignTable = some other ∧
        other.column? foreignColumn = some referenced ∧
        (name = none → (ForeignKey.defaultName target.key referenced.key).length ≤
          maxNameLength) := by
  obtain ⟨⟨foreignTable, foreignColumn⟩, hs, h⟩ := bind_eq_ok_iff.mp h
  refine ⟨foreignTable, foreignColumn, hs, ?_⟩
  dsimp only at h
  split at h
  · cases h
  · next hne =>
    refine ⟨hne, ?_⟩
    cases ho : catalog.table? foreignTable with
    | none => simp [ho] at h
    | some other =>
      cases hr : other.column? foreignColumn with
      | none => simp [ho, hr] at h
      | some referenced =>
        refine ⟨other, referenced, rfl, hr, ?_⟩
        rintro rfl
        by_contra hlong
        simp [ho, hr, checkNameLength, Nat.lt_of_not_le hlong] at h

/-- A new foreign key names the column that refers and the one that is referred to. -/
theorem exists_of_checkAddition {fields : Fields} {modifiers : Modifiers}
    (h : checkAddition .foreign fields modifiers = .ok ()) :
    ∃ column foreign, fields = .column column ∧ modifiers.foreign = some foreign := by
  unfold checkAddition at h
  split at h
  · next column =>
    rw [if_pos rfl] at h
    split at h
    · next foreign hforeign => exact ⟨column, foreign, rfl, hforeign⟩
    · cases h
  · cases h

/-- What validation has found out about a new foreign key: the table and the column that it leads
away from, the names that its reference is made of, and the table and the column that these stand
for. -/
structure FindsKey (request : Request) (catalog : Catalog) (table : Table) (target : Column)
    (foreign : String × String) (other : Table) (referenced : Column) : Prop where
  known : catalog.table? request.table.name = some table
  resolves : ∃ reference, request.fields = .column reference ∧ table.resolve reference = .ok target
  splits : ∃ reference, request.modifiers.foreign = some reference ∧
    reference.splitQualified = .ok foreign
  apart : foreign.1 ≠ request.table.name
  knownOther : catalog.table? foreign.1 = some other
  finds : other.column? foreign.2 = some referenced

/-- A valid foreign key goes from a column of a table in the catalog to one of another such
table. -/
theorem findsKey_of_validate (h : request.validate catalog = .ok resolved)
    (hm : resolved.method = .addConstraint .foreign) :
    ∃ table target foreign other referenced,
      request.FindsKey catalog table target foreign other referenced ∧
        (request.modifiers.name = none →
          (ForeignKey.defaultName target.key referenced.key).length ≤ maxNameLength) := by
  obtain ⟨hr, hshape, hschema⟩ := validate_eq_ok_iff.mp h
  obtain ⟨table, hfound, ht⟩ := table_of_resolve hr (by rw [hm]; rfl) (by rw [hm]; rfl)
  have hfields := (checkShape_eq_ok_iff.mp hshape).1
  rw [hm] at hfields
  obtain ⟨column, foreign, hf, hforeign⟩ := exists_of_checkAddition hfields
  have hfit := (checkSchema_eq_ok_iff.mp hschema).1
  simp only [fitFields, hm, hf, ht, ok_bind] at hfit
  obtain ⟨target, htarget, hfit⟩ := bind_eq_ok_iff.mp hfit
  simp only [fitKind, hforeign] at hfit
  obtain ⟨⟨⟩, hfit, -⟩ := bind_eq_ok_iff.mp hfit
  obtain ⟨foreignTable, foreignColumn, hs, hne, other, referenced, ho, hreferenced, hname⟩ :=
    exists_of_fitForeign hfit
  rw [name_of_findTable? hfound] at hne
  exact ⟨table, target, (foreignTable, foreignColumn), other, referenced,
    ⟨hfound, ⟨column, hf, htarget⟩, ⟨foreign, hforeign, hs⟩, hne, ho, hreferenced⟩, hname⟩

theorem foreign_of_validate {column foreign : ColumnRef}
    (h : request.validate catalog = .ok resolved) (hm : resolved.method = .addConstraint .foreign)
    (hf : request.fields = .column column) (hforeign : request.modifiers.foreign = some foreign) :
    ∃ table target, catalog.table? request.table.name = some table ∧
      table.resolve column = .ok target ∧ ∃ foreignTable foreignColumn other,
      foreign.splitQualified = .ok (foreignTable, foreignColumn) ∧
        foreignTable ≠ request.table.name ∧ catalog.table? foreignTable = some other := by
  obtain ⟨table, target, ends, other, referenced, hfinds, -⟩ := findsKey_of_validate h hm
  obtain ⟨_, hcolumn, hresolve⟩ := hfinds.resolves
  obtain ⟨_, hreference, hsplit⟩ := hfinds.splits
  cases hf.symm.trans hcolumn
  cases hforeign.symm.trans hreference
  exact ⟨table, target, hfinds.known, hresolve, ends.1, ends.2, other, hsplit, hfinds.apart,
    hfinds.knownOther⟩

end SchemaQuery.Request
