import SchemaQuery.Proofs.Join
import SchemaQuery.Proofs.MySql.Token

/-! Inserts.  The statement of a valid insert names the columns that the references of the request
stand for, with their values in the same order, and these give every column a value that needs one.
Validation looks for columns that are missing and not for those given twice, so that a statement
names a column twice where two references stand for it.  A name with a point is written in two
parts, as a join would have it. -/

namespace SchemaQuery

open MySql

variable {a b name : String}

/-! ### The text of a column -/

theorem MySql.beginsOutside_nil {p : Char → Bool} : BeginsOutside p [] := by
  simp [BeginsOutside]

theorem columnText_plain (h : hasPoint name = false) : columnText name = columnIdentifier name := by
  simp only [columnText, qualifiedColumn, splitFirst?_plain h]

/-- A name with a point is taken for that of a column behind that of a table. -/
theorem columnText_pointed (h : hasPoint name = true) : ∃ front rest, name = front ++ "." ++ rest ∧
    columnText name = columnIdentifier front ++ "." ++ columnIdentifier rest := by
  cases hcut : Text.cutFirst '.' name.toList with
  | none =>
    have hmem : '.' ∈ name.toList := by simpa [hasPoint] using h
    exact absurd hmem (Text.cutFirst_eq_none_iff.mp hcut)
  | some cut =>
    obtain ⟨hname, -⟩ := Text.cutFirst_eq_some_iff.mp hcut
    refine ⟨String.ofList cut.1, String.ofList cut.2, ?_, ?_⟩
    · rw [← String.toList_inj, hname]
      simp
    · simp only [columnText, qualifiedColumn, Text.splitFirst?, hcut, Option.map_some]

/-- Two parts with a point between them are no identifier. -/
theorem columnIdentifier_ne_pointed (front rest : String) :
    columnIdentifier a ≠ columnIdentifier front ++ "." ++ rest := by
  intro h
  have hchars : (columnIdentifier a).toList ++ [] = (columnIdentifier front).toList ++ '.' ::
      rest.toList := by
    simp [h]
  cases (columnIdentifier_append_inj beginsOutside_nil (beginsOutside_cons rfl) hchars).2

/-- The text of a column is an identifier when its name has no point. -/
theorem columnText_isIdentifier_iff :
    (∃ other, columnText name = columnIdentifier other) ↔ hasPoint name = false := by
  constructor
  · rintro ⟨other, h⟩
    cases hpoint : hasPoint name with
    | false => rfl
    | true =>
      obtain ⟨front, rest, -, htext⟩ := columnText_pointed hpoint
      exact absurd (h.symm.trans htext) (columnIdentifier_ne_pointed front _)
  · intro h
    exact ⟨name, columnText_plain h⟩

theorem columnIdentifier_injective : Function.Injective columnIdentifier := by
  intro a b h
  have hchars : (columnIdentifier a).toList ++ [] = (columnIdentifier b).toList ++ [] := by rw [h]
  exact (columnIdentifier_append_inj beginsOutside_nil beginsOutside_nil hchars).1

/-- Columns are told by their texts. -/
theorem columnText_injective : Function.Injective columnText := by
  intro a b h
  cases ha : hasPoint a with
  | false =>
    have hb : hasPoint b = false :=
      columnText_isIdentifier_iff.mp ⟨a, h.symm.trans (columnText_plain ha)⟩
    rw [columnText_plain ha, columnText_plain hb] at h
    exact columnIdentifier_injective h
  | true =>
    have hb : hasPoint b = true := by
      by_contra hplain
      rw [Bool.not_eq_true] at hplain
      rw [columnText_isIdentifier_iff.mp ⟨b, h.trans (columnText_plain hplain)⟩] at ha
      cases ha
    obtain ⟨front, rest, rfl, htext⟩ := columnText_pointed ha
    obtain ⟨front', rest', rfl, htext'⟩ := columnText_pointed hb
    have hchars : (columnIdentifier front).toList ++ '.' :: (columnIdentifier rest).toList =
        (columnIdentifier front').toList ++ '.' :: (columnIdentifier rest').toList := by
      simpa using congrArg String.toList ((htext.symm.trans h).trans htext')
    obtain ⟨rfl, hrest⟩ :=
      columnIdentifier_append_inj (beginsOutside_cons rfl) (beginsOutside_cons rfl) hchars
    rw [columnIdentifier_injective (String.toList_inj.mp (List.cons.inj hrest).2)]

/-! ### Columns and values -/

/-- Whether an insert has to give the column a value. -/
def Column.isRequired (column : Column) : Bool :=
  !column.nullable && column.defaultValue.isNone && !column.autoIncrement

namespace Request

variable {catalog : Catalog} {request : Request} {resolved : Resolved} {table : Table}
variable {pairs : List (ColumnRef × Value)} {columns : List Column}

/-- The columns that references stand for, in their order. -/
def StandFor (table : Table) (pairs : List (ColumnRef × Value)) (columns : List Column) : Prop :=
  List.Forall₂ (fun pair column => table.resolve pair.1 = .ok column) pairs columns

theorem StandFor.subset (h : StandFor table pairs columns) : columns ⊆ table.columns := by
  induction h with
  | nil => exact List.nil_subset _
  | cons hfirst _ ih => exact List.cons_subset.mpr ⟨Table.mem_of_resolve hfirst, ih⟩

theorem StandFor.names (h : StandFor table pairs columns) :
    (pairs.mapM fun (reference, _) => columnName table reference) = .ok (columns.map Column.name) :=
  mapM_eq_ok_iff.mpr (List.forall₂_map_right_iff.mpr
    (h.imp fun _ _ hfound => map_eq_ok_iff.mpr ⟨_, hfound, rfl⟩))

theorem StandFor.namedValues (h : StandFor table pairs columns) : ∃ values,
    namedValues table (.values pairs) = .ok values ∧ values.map Prod.fst = columns.map Column.name ∧
      values.map Prod.snd = pairs.map Prod.snd := by
  induction h with
  | nil => exact ⟨[], rfl, rfl, rfl⟩
  | @cons pair column others found hfirst _ ih =>
    obtain ⟨values, hvalues, hnames, hgiven⟩ := ih
    refine ⟨(column.name, pair.2) :: values, ?_, by simp [hnames], by simp [hgiven]⟩
    have hname : columnName table pair.1 = .ok column.name :=
      map_eq_ok_iff.mpr ⟨column, hfirst, rfl⟩
    exact mapM_eq_ok_iff.mpr (.cons (map_eq_ok_iff.mpr ⟨_, hname, rfl⟩) (mapM_eq_ok_iff.mp hvalues))

/-- No two references are to columns of one name exactly when the columns have different names. -/
theorem StandFor.nodup_iff (h : StandFor table pairs columns) :
    (columns.map Column.name).Nodup ↔ pairs.Pairwise fun p q =>
      columnName table p.1 ≠ columnName table q.1 := by
  have hnames : pairs.map (fun pair => columnName table pair.1) = columns.map fun column =>
      .ok column.name := by
    induction h with
    | nil => rfl
    | cons hfirst _ ih => rw [List.map_cons, List.map_cons, ih, columnName, hfirst, map_ok]
  have hinjective : Function.Injective (Except.ok : String → Except Error String) :=
    fun _ _ => Except.ok.inj
  calc (columns.map Column.name).Nodup
    _ ↔ (columns.map fun column => (.ok column.name : Except Error String)).Nodup := by
      rw [← List.nodup_map_iff hinjective, List.map_map]
      rfl
    _ ↔ (pairs.map fun pair => columnName table pair.1).Nodup := by rw [hnames]
    _ ↔ pairs.Pairwise fun (p q : ColumnRef × Value) =>
      columnName table p.1 ≠ columnName table q.1 :=
      List.pairwise_map

/-- An insert fits a table when its references stand for columns of the table, and those that need a
value are among them. -/
theorem fitInsert_eq_ok_iff :
    fitInsert table pairs = .ok () ↔ ∃ columns, StandFor table pairs columns ∧
    ∀ column ∈ table.columns, column.isRequired = true → column.name ∈ columns.map Column.name := by
  have hmissing : ∀ given : List String, table.columns.find? (fun column =>
      !column.nullable && column.defaultValue.isNone && !column.autoIncrement &&
        !given.contains column.name) = none ↔
      ∀ column ∈ table.columns, column.isRequired = true → column.name ∈ given := by
    simp [List.find?_eq_none, Column.isRequired]
  rw [fitInsert, bind_eq_ok_iff]
  constructor
  · rintro ⟨given, hgiven, h⟩
    have hresolved : ∀ pair ∈ pairs, ∃ column, table.resolve pair.1 = .ok column := fun pair hp =>
      exists_map_eq_ok_iff.mp (exists_mapM_eq_ok_iff.mp ⟨given, hgiven⟩ pair hp)
    obtain ⟨columns, hread⟩ := exists_mapM_eq_ok_iff.mpr hresolved
    have hcolumns : StandFor table pairs columns := mapM_eq_ok_iff.mp hread
    cases hcolumns.names.symm.trans hgiven
    refine ⟨columns, hcolumns, (hmissing _).mp ?_⟩
    dsimp only at h
    split at h
    · cases h
    · assumption
  · rintro ⟨columns, hcolumns, hrequired⟩
    refine ⟨columns.map Column.name, hcolumns.names, ?_⟩
    simp only [(hmissing _).mpr hrequired]

/-! ### Statements -/

/-- What the statement of an insert has to do with its request.  The columns are those that the
references stand for, in their order, and all that need a value are among them. -/
structure Inserts (request : Request) (catalog : Catalog) (table : Table)
    (pairs : List (ColumnRef × Value)) (columns : List Column) : Prop where
  known : catalog.table? request.table.name = some table
  given : request.fields = .values pairs
  standFor : StandFor table pairs columns
  ofTable : columns ⊆ table.columns
  required :
    ∀ column ∈ table.columns, column.isRequired = true → column.name ∈ columns.map Column.name
  text : request.text catalog = .ok ("insert into " ++ request.table.target.text ++ " (" ++
    ", ".intercalate (columns.map fun column => columnText column.name) ++ ") values (" ++
    ", ".intercalate (pairs.map fun pair => literal pair.2) ++ ")" ++ ";")

theorem inserts_of_validate (h : request.validate catalog = .ok resolved)
    (hm : resolved.method = .insert) :
    ∃ table pairs columns, request.Inserts catalog table pairs columns := by
  obtain ⟨hr, hshape, hschema⟩ := validate_eq_ok_iff.mp h
  obtain ⟨table, hfound, ht⟩ := table_of_resolve hr (by rw [hm]; rfl) (by rw [hm]; rfl)
  have hfields := (checkShape_eq_ok_iff.mp hshape).1
  rw [hm] at hfields
  obtain ⟨pairs, hf, -⟩ := checkValues_eq_ok_iff.mp hfields
  have hfit := (checkSchema_eq_ok_iff.mp hschema).1
  simp only [fitFields, hm, hf, ht, ok_bind] at hfit
  obtain ⟨columns, hcolumns, hrequired⟩ := fitInsert_eq_ok_iff.mp hfit
  obtain ⟨values, hvalues, hnames, hgiven⟩ := hcolumns.namedValues
  have hstatement : statementOf resolved request = .ok (.insert request.table.target values) := by
    simp only [statementOf, hm, hf, ht, ok_bind, hvalues]
    rfl
  have htexts : (values.map fun pair => columnText pair.1) = columns.map fun column =>
      columnText column.name := by
    simpa [Function.comp_def] using congrArg (List.map columnText) hnames
  have hliterals : (values.map fun pair => literal pair.2) = pairs.map fun pair =>
      literal pair.2 := by
    simpa [Function.comp_def] using congrArg (List.map literal) hgiven
  refine ⟨table, pairs, columns, hfound, hf, hcolumns, hcolumns.subset, hrequired, ?_⟩
  rw [text_of_resolve hr hstatement, Statement.text_insert, htexts, hliterals]

/-- A valid insert names columns of its table, among them all that need a value, and gives each the
value that its reference was given.  It names no column twice exactly when no two references stand
for columns of one name.  A column is named by the identifier of one of the table exactly when its
name has no point. -/
theorem insert_names_once_iff (h : request.validate catalog = .ok resolved)
    (hm : resolved.method = .insert) :
    ∃ table pairs columns, request.Inserts catalog table pairs columns ∧
      ((columns.map fun column => columnText column.name).Nodup ↔
        pairs.Pairwise fun p q => columnName table p.1 ≠ columnName table q.1) ∧
      ∀ column ∈ columns, (∃ other ∈ table.columns, columnText column.name =
        columnIdentifier other.name) ↔ hasPoint column.name = false := by
  obtain ⟨table, pairs, columns, hinserts⟩ := inserts_of_validate h hm
  refine ⟨table, pairs, columns, hinserts, ?_, fun column hc => ?_⟩
  · have htexts := List.nodup_map_iff columnText_injective (l := columns.map Column.name)
    rw [List.map_map] at htexts
    exact htexts.trans hinserts.standFor.nodup_iff
  · constructor
    · rintro ⟨other, -, htext⟩
      exact columnText_isIdentifier_iff.mp ⟨other.name, htext⟩
    · intro hplain
      exact ⟨column, hinserts.ofTable hc, columnText_plain hplain⟩

/-- References by name, by qualified name and by value, to columns of which one has a default. -/
theorem insert_names_once_iff_users :
    let email : Column :=
      { name := "email", owner := some "users", type := "varchar(255)", nullable := false }
    let users : Table :=
      { name := "users"
        columns :=
          [{ name := "id", owner := some "users", type := "int", nullable := false,
              autoIncrement := true },
            email,
            { name := "role", owner := some "users", type := "int", nullable := false,
              defaultValue := some "1" },
            { name := "nick", owner := some "users", type := "text" }] }
    let catalog : Catalog := ⟨true, [users]⟩
    let request : Request :=
      { method := "insert", table := .byName "users"
        fields :=
          .values [(.byName "users.nick", .null), (.byValue email, .text "a@b"),
            (.byName "id", .int 7)] }
    let resolved : Resolved := ⟨.insert, some users⟩
    request.validate catalog = .ok resolved ∧ resolved.method = .insert ∧
    ∃ table pairs columns, request.Inserts catalog table pairs columns ∧
      ((columns.map fun column => columnText column.name).Nodup ↔
        pairs.Pairwise fun p q => columnName table p.1 ≠ columnName table q.1) ∧
      ∀ column ∈ columns, (∃ other ∈ table.columns, columnText column.name =
        columnIdentifier other.name) ↔ hasPoint column.name = false := by
  intro email users catalog request resolved
  have h : request.validate catalog = .ok resolved := by decide +kernel
  exact ⟨h, rfl, insert_names_once_iff h rfl⟩

/-- Two references to one column, and a column whose name has a point. -/
theorem insert_names_twice :
    let users : Table :=
      { name := "users", columns := [{ name := "id", owner := some "users", type := "int" }] }
    let points : Table :=
      { name := "points", columns := [{ name := "y.z", owner := some "points", type := "int" }] }
    let catalog : Catalog := ⟨true, [users, points]⟩
    let twice : Request :=
      { method := "insert", table := .byName "users"
        fields := .values [(.byName "id", .int 1), (.byName "users.id", .int 2)] }
    let pointed : Request :=
      { method := "insert", table := .byName "points", fields := .values [(.byName "y.z", .int 1)] }
    twice.validate catalog = .ok ⟨.insert, some users⟩ ∧
      twice.text catalog = .ok "insert into \x60users\x60 (id, id) values (1, 2);" ∧
    pointed.validate catalog = .ok ⟨.insert, some points⟩ ∧
      pointed.text catalog = .ok "insert into \x60points\x60 (y.z) values (1);" ∧
      columnIdentifier "y.z" = "\x60y.z\x60" := by
  decide +kernel

end Request

end SchemaQuery
