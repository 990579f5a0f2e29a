import SchemaQuery.Proofs.Column.Name
import SchemaQuery.Proofs.Request.Creation
import SchemaQuery.Proofs.Request.NewColumn

/-! The lists in statements: what a query returns, the columns and the values of an insert, the
assignments of an update and the definitions of a new table.  A statement is its lists, each behind
the words that open it, and a tail.  Validation refuses an empty list of values or definitions, and
lets a query of no columns pass. -/

namespace SchemaQuery

/-! ### Items -/

/-- A list of a statement, with the text from the list before it up to its first item. -/
structure ItemList where
  opening : String
  items : List String
deriving DecidableEq

def ItemList.text (list : ItemList) : String := list.opening ++ ", ".intercalate list.items

theorem MySql.quoteIdentifier_ne_empty (name : String) : MySql.quoteIdentifier name ≠ "" := by
  simp [← String.toList_inj, MySql.toList_quoteIdentifier]

theorem MySql.columnIdentifier_ne_empty (name : String) : MySql.columnIdentifier name ≠ "" := by
  rw [MySql.columnIdentifier]
  split
  · next hbare =>
    rintro rfl
    cases hbare
  · exact MySql.quoteIdentifier_ne_empty name

theorem columnText_ne_empty (name : String) : columnText name ≠ "" := by
  rw [columnText, MySql.qualifiedColumn]
  split
  · simp
  · exact MySql.columnIdentifier_ne_empty name

theorem Binary64.signed_ne_empty (x : Binary64) {text : List Char} (h : text ≠ []) :
    x.signed text ≠ "" := by
  rw [Binary64.signed]
  split <;> simp [h]

theorem MySql.toString_int_ne_empty (n : Int) : toString n ≠ "" := by
  cases n <;> simp [Int.repr]

theorem MySql.literal_ne_empty (v : Value) : MySql.literal v ≠ "" := by
  cases v with
  | null => decide
  | bool b => cases b <;> decide
  | int n => exact MySql.toString_int_ne_empty n.toInt
  | uint n => simp [MySql.literal]
  | float x =>
    rw [MySql.literal, Binary64.plain]
    split
    · decide
    · exact Binary64.signed_ne_empty x (List.cons_ne_nil _ _)
    · exact Binary64.signed_ne_empty x (List.cons_ne_nil _ _)
    · exact Binary64.signed_ne_empty x (MySql.positional_ne_nil _)
  | text s => simp [MySql.literal, MySql.textLiteral]
  | bytes data => simp [MySql.literal]

theorem Column.definition_ne_empty (column : Column) : column.definition ≠ "" := by
  obtain ⟨tail, htail⟩ := column.exists_tail_definition
  simp [htail]

/-- A definition that can be written is not blank. -/
theorem ColumnRef.definition_ne_empty {reference : ColumnRef} {text : String}
    (h : reference.definition = .ok text) : text ≠ "" := by
  cases reference with
  | byName definition =>
    obtain ⟨column, hread, rfl⟩ := map_eq_ok_iff.mp h
    obtain ⟨all, hall, hne, -⟩ :=
      Definition.hasComma_iff_of_parse (Column.ofDefinition_eq_ok_iff.mp hread)
    rw [Text.trim, Ne, String.ofList_eq_empty_iff]
    exact Definition.trimChars_ne_nil_of_tokens hall hne
  | byValue column =>
    cases h
    exact column.definition_ne_empty

/-! ### The lists of a statement -/

def Projection.items : Projection → List String
  | .everything => ["*"]
  | .columns names => names.map columnText
  | .countRows => ["count(*)"]
  | .countColumn name => ["count(" ++ columnText name ++ ")"]

theorem Projection.text_eq (projection : Projection) :
    projection.text = ", ".intercalate projection.items := by
  cases projection <;> rfl

theorem Projection.ne_empty_of_mem (projection : Projection) {item : String}
    (h : item ∈ projection.items) : item ≠ "" := by
  cases projection with
  | columns names =>
    obtain ⟨name, -, rfl⟩ := List.mem_map.mp h
    exact columnText_ne_empty name
  | _ =>
    cases List.mem_singleton.mp h
    simp

namespace Statement

/-- The lists in the order in which they are written. -/
def lists : Statement → List ItemList
  | .select distinct projection _ _ =>
    [⟨"select " ++ (if distinct then "distinct " else ""), projection.items⟩]
  | .insert target values =>
    [⟨"insert into " ++ target.text ++ " (", values.map fun pair => columnText pair.1⟩,
      ⟨") values (", values.map fun pair => MySql.literal pair.2⟩]
  | .update target values _ => [⟨"update " ++ target.text ++ " set ", values.map assignment⟩]
  | .createTable temporary guarded target definitions =>
    [⟨"create " ++ temporaryWord temporary ++ "table " ++ target.text ++ " " ++
      (if guarded then "if not exists " else "") ++ "(", definitions⟩]
  | _ => []

/-- What is written after the last list. -/
def closing : Statement → String
  | .select _ _ target clauses => " from " ++ target.text ++ clauses.text ++ ";"
  | .insert _ _ | .createTable _ _ _ _ => ")" ++ ";"
  | .update _ _ clauses => clauses.text ++ ";"
  | statement => statement.text

theorem text_eq_lists (statement : Statement) :
    statement.text = String.join (statement.lists.map ItemList.text) ++ statement.closing := by
  cases statement with
  | select | insert | update | createTable =>
    simp only [text_select, text_insert, text_update, text_createTable, lists, closing,
      ItemList.text, Projection.text_eq, List.map_cons, List.map_nil, String.join_cons,
      String.join_nil, String.append_empty, String.append_assoc]
  | _ => exact String.empty_append.symm

end Statement

/-- Whether the statements of a method have lists. -/
def Method.writesLists : Method → Bool
  | .select | .distinct | .insert | .update | .createTable _ _ => true
  | _ => false

namespace Request

variable {catalog : Catalog} {request : Request} {resolved : Resolved} {table : Table}

/-! ### Which lists are filled -/

/-- The list of a query is empty exactly when the request gives a list of columns without any. -/
theorem projection_items_eq_nil_iff {method : Method} {fields : Fields} {found : Projection}
    (hm : method ≠ .count) (h : projection method table fields = .ok found) :
    found.items = [] ↔ fields = .columns [] := by
  unfold projection at h
  split at h
  · exact absurd rfl hm
  · exact absurd rfl hm
  · next reference _ =>
    split at h
    · cases h
      simp [Projection.items]
    · obtain ⟨name, -, rfl⟩ := map_eq_ok_iff.mp h
      simp [Projection.items]
  · obtain ⟨names, hnames, rfl⟩ := map_eq_ok_iff.mp h
    have hlength := (mapM_eq_ok_iff.mp hnames).length_eq
    simp [Projection.items, ← List.length_eq_zero_iff, hlength]
  · next hcolumns _ =>
    cases h
    have hother : fields ≠ .columns [] := hcolumns []
    simp [Projection.items, hother]

theorem namedValues_ne_nil {pairs : List (ColumnRef × Value)} {values : List (String × Value)}
    (hne : pairs ≠ []) (h : namedValues table (.values pairs) = .ok values) : values ≠ [] := by
  rintro rfl
  cases mapM_eq_ok_iff.mp h
  exact hne rfl

/-- A new table that has passed its check has definitions, and none of them is empty. -/
theorem definitionTexts_filled {texts : List String}
    (hcheck : checkCreation request.table request.fields = .ok ())
    (h : definitionTexts request = .ok texts) : texts ≠ [] ∧ ∀ text ∈ texts, text ≠ "" := by
  obtain ⟨columns, hplanned, hne, -⟩ := checkCreation_eq_ok_iff.mp hcheck
  have hgiven (hf : (∃ column, request.fields = .column column) ∨
      ∃ columns, request.fields = .columns columns) : texts ≠ [] ∧ ∀ text ∈ texts, text ≠ "" := by
    obtain ⟨references, hread, hcolumns⟩ :=
      bind_eq_ok_iff.mp ((plannedColumns_of_given hf).symm.trans hplanned)
    rw [definitionTexts_of_given hf, hread, ok_bind] at h
    constructor
    · rintro rfl
      cases mapM_eq_ok_iff.mp h
      cases hcolumns
      exact hne rfl
    · intro text htext
      obtain ⟨reference, -, hreference⟩ := exists_of_mem_mapM h htext
      exact ColumnRef.definition_ne_empty hreference
  cases hf : request.fields with
  | column column => exact hgiven (.inl ⟨column, hf⟩)
  | columns columns => exact hgiven (.inr ⟨columns, hf⟩)
  | _ =>
    simp only [definitionTexts, hf] at h
    rw [hplanned] at h
    cases h
    refine ⟨by simpa using hne, List.forall_mem_map.mpr fun column _ => column.definition_ne_empty⟩

/-- What a statement of one of these methods lists.  No item is empty, and with the shape that was
checked there are items unless the request asks for no columns. -/
theorem lists_of_statementOf {statement : Statement} (hm : resolved.method.writesLists = true)
    (hfields : checkFields resolved.method request = .ok ())
    (h : statementOf resolved request = .ok statement) :
    statement.lists ≠ [] ∧ (∀ list ∈ statement.lists, ∀ item ∈ list.items, item ≠ "") ∧
      ((∀ list ∈ statement.lists, list.items ≠ []) ↔ request.fields ≠ .columns []) := by
  cases hmethod : resolved.method with
  | select | distinct =>
    simp only [statementOf, hmethod] at h
    obtain ⟨table, -, h⟩ := bind_eq_ok_iff.mp h
    obtain ⟨found, hfound, h⟩ := bind_eq_ok_iff.mp h
    obtain ⟨parts, -, h⟩ := bind_eq_ok_iff.mp h
    cases h
    have hempty := projection_items_eq_nil_iff (by simp) hfound
    refine ⟨List.cons_ne_nil _ _, ?_, ?_⟩
    · rw [Statement.lists, List.forall_mem_singleton]
      exact fun item hitem => found.ne_empty_of_mem hitem
    · rw [Statement.lists, List.forall_mem_singleton]
      exact not_congr hempty
  | insert =>
    rw [hmethod] at hfields
    obtain ⟨pairs, hf, hne⟩ := checkValues_eq_ok_iff.mp hfields
    simp only [statementOf, hmethod, hf] at h
    obtain ⟨table, -, h⟩ := bind_eq_ok_iff.mp h
    obtain ⟨values, hvalues, h⟩ := bind_eq_ok_iff.mp h
    cases h
    have hfilled := namedValues_ne_nil hne hvalues
    refine ⟨List.cons_ne_nil _ _, ?_, ?_⟩
    · rw [Statement.lists, List.forall_mem_cons, List.forall_mem_singleton]
      exact ⟨List.forall_mem_map.mpr fun pair _ => columnText_ne_empty pair.1,
        List.forall_mem_map.mpr fun pair _ => MySql.literal_ne_empty pair.2⟩
    · simp [Statement.lists, hfilled, hf]
  | update =>
    rw [hmethod] at hfields
    obtain ⟨pairs, hf, hne⟩ := checkValues_eq_ok_iff.mp hfields
    simp only [statementOf, hmethod, hf] at h
    obtain ⟨table, -, h⟩ := bind_eq_ok_iff.mp h
    obtain ⟨values, hvalues, h⟩ := bind_eq_ok_iff.mp h
    obtain ⟨parts, -, h⟩ := bind_eq_ok_iff.mp h
    cases h
    have hfilled := namedValues_ne_nil hne hvalues
    refine ⟨List.cons_ne_nil _ _, ?_, ?_⟩
    · rw [Statement.lists, List.forall_mem_singleton]
      refine List.forall_mem_map.mpr fun pair _ => ?_
      simp [Statement.assignment]
    · simp [Statement.lists, hfilled, hf]
  | createTable temporary guarded =>
    rw [hmethod] at hfields
    simp only [statementOf, hmethod] at h
    obtain ⟨texts, htexts, h⟩ := bind_eq_ok_iff.mp h
    cases h
    obtain ⟨hfilled, hblank⟩ := definitionTexts_filled hfields htexts
    refine ⟨List.cons_ne_nil _ _, ?_, ?_⟩
    · rw [Statement.lists, List.forall_mem_singleton]
      exact hblank
    · have hsome : request.fields ≠ .columns [] := by
        intro hf
        rw [definitionTexts, hf] at htexts
        cases htexts
        exact hfilled rfl
      simp [Statement.lists, hfilled, hsome]
  | _ =>
    rw [hmethod] at hm
    cases hm

/-- A valid request that writes lists.  Its statement is made up of these lists, none of whose items
is empty.  Each of them has an item exactly when the request does not give an empty list of
columns. -/
theorem lists_filled_iff (h : request.validate catalog = .ok resolved)
    (hm : resolved.method.writesLists = true) :
    ∃ statement, request.statement catalog = .ok statement ∧
      request.text catalog =
        .ok (String.join (statement.lists.map ItemList.text) ++ statement.closing) ∧
      statement.lists ≠ [] ∧ (∀ list ∈ statement.lists, ∀ item ∈ list.items, item ≠ "") ∧
      ((∀ list ∈ statement.lists, list.items ≠ []) ↔ request.fields ≠ .columns []) := by
  obtain ⟨statement, hs, hstatement, htext⟩ := exists_text_of_validate h
  obtain ⟨-, hshape, -⟩ := validate_eq_ok_iff.mp h
  have hfields := (checkShape_eq_ok_iff.mp hshape).1
  rw [Statement.text_eq_lists] at htext
  exact ⟨statement, hstatement, htext, lists_of_statementOf hm hfields hs⟩

/-- An insert of two values. -/
theorem lists_filled_iff_insert :
    let users : Table :=
      { name := "users"
        columns := [{ name := "id", owner := some "users", type := "int" },
          { name := "nick", owner := some "users", type := "text" }] }
    let catalog : Catalog := ⟨true, [users]⟩
    let request : Request :=
      { method := "insert", table := .byName "users"
        fields := .values [(.byName "id", .int 7), (.byName "users.nick", .text "o'k")] }
    let resolved : Resolved := ⟨.insert, some users⟩
    request.validate catalog = .ok resolved ∧ resolved.method.writesLists = true ∧
    ∃ statement, request.statement catalog = .ok statement ∧
      request.text catalog = .ok (String.join (statement.lists.map ItemList.text) ++
        statement.closing) ∧
      statement.lists ≠ [] ∧ (∀ list ∈ statement.lists, ∀ item ∈ list.items, item ≠ "") ∧
      ((∀ list ∈ statement.lists, list.items ≠ []) ↔ request.fields ≠ .columns []) := by
  intro users catalog request resolved
  have h : request.validate catalog = .ok resolved := by decide +kernel
  exact ⟨h, rfl, lists_filled_iff h rfl⟩

/-- A query of no columns is valid, and nothing stands where its columns should. -/
theorem select_without_columns :
    let users : Table :=
      { name := "users", columns := [{ name := "id", owner := some "users", type := "int" }] }
    let catalog : Catalog := ⟨true, [users]⟩
    let request : Request := { method := "select", table := .byName "users", fields := .columns [] }
    request.validate catalog = .ok ⟨.select, some users⟩ ∧
      request.text catalog = .ok "select  from \x60users\x60;" ∧
      ∃ statement, request.statement catalog = .ok statement ∧
      statement.lists = [⟨"select ", []⟩] := by
  intro users catalog request
  refine ⟨by decide +kernel, by decide +kernel, ?_⟩
  exact ⟨.select false (.columns []) (.table "users") {}, by decide +kernel, by decide +kernel⟩

end Request

end SchemaQuery
