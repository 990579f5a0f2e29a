import SchemaQuery.Proofs.MySql.Scan
import SchemaQuery.Proofs.Request.Statement

/-! Statements that quote whatever they are given.  Reading and changing rows, and the simple
operations on tables, write names, values and expressions only; such a statement is safe whatever
these contain.  The others write definitions or names of constraints, which are not quoted. -/

namespace SchemaQuery

open MySql

/-- Whether the statements of a method write nothing but names, values and expressions. -/
def Method.quotesAll : Method → Bool
  | .select | .distinct | .count | .insert | .update | .delete | .showTables | .describe | .truncate
  | .renameTable | .dropTable _ | .dropColumn => true
  | .createTable _ _ | .addColumn | .alterColumn | .addConstraint _ | .dropConstraint => false

/-! ### Parts of statements -/

theorem isClean_operation {left right symbol : String} (hl : IsClean left)
    (hs : IsClean (" " ++ symbol ++ " ")) (hr : IsClean right) :
    IsClean ("(" ++ left ++ " " ++ symbol ++ " " ++ right ++ ")") := by
  have hinner : IsClean ("(" ++ (left ++ (" " ++ symbol ++ " ") ++ right) ++ ")") :=
    ((by decide : IsClean "(").append ((hl.append hs).append hr)).append (by decide)
  simpa only [String.append_assoc] using hinner

/-- Every operator is written between blanks, so that none can open a comment. -/
theorem isClean_expr (e : Expr) : IsClean e.text := by
  unfold Expr.text
  induction e with
  | column key => exact isClean_qualifiedColumn key
  | value v => exact isClean_literal v
  | list values =>
    refine ((by decide : IsClean "(").append (isClean_intercalate (by decide) ?_)).append
      (by decide)
    exact List.forall_mem_map.mpr fun v _ => isClean_literal v
  | operation op left right hl hr => exact isClean_operation hl (by cases op <;> decide) hr
  | comparison op left right hl hr => exact isClean_operation hl (by cases op <;> decide) hr

theorem isClean_columnText (name : String) : IsClean (columnText name) := isClean_qualifiedColumn _

theorem isClean_projection (p : Projection) : IsClean p.text := by
  cases p with
  | everything => exact (by decide : IsClean "*")
  | columns names =>
    exact isClean_intercalate (by decide)
      (List.forall_mem_map.mpr fun name _ => isClean_columnText name)
  | countRows => exact (by decide : IsClean "count(*)")
  | countColumn name =>
    exact ((by decide : IsClean "count(").append (isClean_columnText name)).append (by decide)

theorem isClean_optionalClause {opening : String} {text : Option String} (ho : IsClean opening)
    (h : ∀ t ∈ text, IsClean t) : IsClean (optionalClause opening text) := by
  cases text with
  | none => exact isClean_empty
  | some t => exact ho.append (h t rfl)

theorem isClean_clauses (c : Clauses) : IsClean c.text := by
  have hkey : ∀ key : Option ColumnKey, ∀ t ∈ key.map qualifiedColumn, IsClean t := by
    intro key t ht
    obtain ⟨k, -, rfl⟩ := Option.map_eq_some_iff.mp ht
    exact isClean_qualifiedColumn k
  refine IsClean.append (.append (.append ?_ ?_) ?_) ?_
  · refine isClean_optionalClause (by decide) fun t ht => ?_
    obtain ⟨e, -, rfl⟩ := Option.map_eq_some_iff.mp ht
    exact isClean_expr e
  · exact isClean_optionalClause (by decide) (hkey _)
  · exact isClean_optionalClause (by decide) (hkey _)
  · refine isClean_optionalClause (by decide) fun t ht => ?_
    obtain ⟨limit, -, rfl⟩ := Option.map_eq_some_iff.mp ht
    exact isClean_int _

theorem isClean_assignment (pair : String × Value) : IsClean (Statement.assignment pair) :=
  ((isClean_columnText _).append (by decide)).append (isClean_literal _)

/-! ### Statements -/

namespace Statement

variable {target : Target}

theorem isClean_select {distinct : Bool} {projection : Projection} {clauses : Clauses}
    (ht : IsClean target.text) : IsClean (select distinct projection target clauses).body := by
  have hword : IsClean (if distinct then "distinct " else "") := by cases distinct <;> decide
  have hopening : IsClean ("select " ++ (if distinct then "distinct " else "") ++
      projection.text) :=
    ((by decide : IsClean "select ").append hword).append (isClean_projection projection)
  exact ((hopening.append (by decide)).append ht).append (isClean_clauses clauses)

theorem isClean_insert {values : List (String × Value)} (ht : IsClean target.text) :
    IsClean (insert target values).body := by
  have hcolumns : IsClean (", ".intercalate (values.map fun pair => columnText pair.1)) :=
    isClean_intercalate (by decide) (List.forall_mem_map.mpr fun pair _ =>
      isClean_columnText pair.1)
  have hvalues : IsClean (", ".intercalate (values.map fun pair => literal pair.2)) :=
    isClean_intercalate (by decide) (List.forall_mem_map.mpr fun pair _ => isClean_literal pair.2)
  have hopening : IsClean ("insert into " ++ target.text ++ " (") :=
    ((by decide : IsClean "insert into ").append ht).append (by decide)
  exact (((hopening.append hcolumns).append (by decide)).append hvalues).append (by decide)

theorem isClean_update {values : List (String × Value)} {clauses : Clauses}
    (ht : IsClean target.text) : IsClean (update target values clauses).body := by
  have hvalues : IsClean (", ".intercalate (values.map assignment)) :=
    isClean_intercalate (by decide) (List.forall_mem_map.mpr fun pair _ => isClean_assignment pair)
  have hopening : IsClean ("update " ++ target.text ++ " set ") :=
    ((by decide : IsClean "update ").append ht).append (by decide)
  exact (hopening.append hvalues).append (isClean_clauses clauses)

theorem isClean_dropTable {temporary : Bool} (ht : IsClean target.text) :
    IsClean (dropTable temporary target).body := by
  have hopening : IsClean ("drop " ++ temporaryWord temporary ++ "table ") := by
    cases temporary <;> decide
  exact (hopening.append ht).append (by decide)

end Statement

namespace Request

variable {catalog : Catalog} {request : Request} {resolved : Resolved} {statement : Statement}

/-- The methods that quote all have statements that are clean if the text of the target is. -/
theorem isClean_of_statementOf (h : statementOf resolved request = .ok statement)
    (hm : resolved.method.quotesAll = true) (ht : IsClean request.table.target.text) :
    IsClean statement.body := by
  cases hmethod : resolved.method with
  | select | distinct | count =>
    simp only [statementOf, hmethod] at h
    obtain ⟨table, -, h⟩ := bind_eq_ok_iff.mp h
    obtain ⟨projection, -, h⟩ := bind_eq_ok_iff.mp h
    obtain ⟨clauses, -, h⟩ := bind_eq_ok_iff.mp h
    cases h
    exact Statement.isClean_select ht
  | insert =>
    simp only [statementOf, hmethod] at h
    obtain ⟨table, -, h⟩ := bind_eq_ok_iff.mp h
    obtain ⟨values, -, h⟩ := bind_eq_ok_iff.mp h
    cases h
    exact Statement.isClean_insert ht
  | update =>
    simp only [statementOf, hmethod] at h
    obtain ⟨table, -, h⟩ := bind_eq_ok_iff.mp h
    obtain ⟨values, -, h⟩ := bind_eq_ok_iff.mp h
    obtain ⟨clauses, -, h⟩ := bind_eq_ok_iff.mp h
    cases h
    exact Statement.isClean_update ht
  | delete =>
    simp only [statementOf, hmethod] at h
    obtain ⟨table, -, h⟩ := bind_eq_ok_iff.mp h
    obtain ⟨clauses, -, h⟩ := bind_eq_ok_iff.mp h
    cases h
    exact ((by decide : IsClean "delete from ").append ht).append (isClean_clauses clauses)
  | showTables =>
    simp only [statementOf, hmethod] at h
    cases h
    exact (by decide : IsClean "show tables")
  | describe =>
    simp only [statementOf, hmethod] at h
    cases h
    exact (by decide : IsClean "describe ").append ht
  | truncate =>
    simp only [statementOf, hmethod] at h
    cases h
    exact (by decide : IsClean "truncate table ").append ht
  | dropTable temporary =>
    simp only [statementOf, hmethod] at h
    cases h
    exact Statement.isClean_dropTable ht
  | renameTable =>
    simp only [statementOf, hmethod] at h
    split at h <;> cases h
    have hopening : IsClean ("alter table " ++ request.table.target.text ++ " rename ") :=
      ((by decide : IsClean "alter table ").append ht).append (by decide)
    exact hopening.append (isClean_quoteIdentifier _)
  | dropColumn =>
    simp only [statementOf, hmethod] at h
    obtain ⟨table, -, h⟩ := bind_eq_ok_iff.mp h
    split at h
    · obtain ⟨column, -, h⟩ := bind_eq_ok_iff.mp h
      cases h
      have hopening : IsClean ("alter table " ++ request.table.target.text ++ " drop column ") :=
        ((by decide : IsClean "alter table ").append ht).append (by decide)
      exact hopening.append (isClean_quoteIdentifier column)
    · cases h
  | createTable | addColumn | alterColumn | addConstraint | dropConstraint =>
    rw [hmethod] at hm
    cases hm

/-- A table by name, or by value when it is no join, is written as a quoted name. -/
theorem isClean_target (h : ∀ table, request.table = .byValue table → table.joined = false) :
    IsClean request.table.target.text := by
  cases href : request.table with
  | byName name => exact isClean_quoteIdentifier name
  | byValue table =>
    rw [TableRef.target, h table href]
    exact isClean_quoteIdentifier table.name

/-- The text of a valid request of such a method on anything but a join is safe, whatever names,
values and expressions it has. -/
theorem isSafe_text (h : request.validate catalog = .ok resolved)
    (hm : resolved.method.quotesAll = true)
    (hjoin : ∀ table, request.table = .byValue table → table.joined = false) :
    ∃ text, request.text catalog = .ok text ∧ IsSafe text := by
  obtain ⟨hr, hshape, hschema⟩ := validate_eq_ok_iff.mp h
  obtain ⟨statement, hs⟩ := exists_statementOf hr hshape hschema
  have hclean : IsClean statement.body := isClean_of_statementOf hs hm (isClean_target hjoin)
  refine ⟨statement.text, ?_, hclean.isSafe⟩
  rw [Request.text, statement_of_resolve hr, hs]
  rfl

/-- Marks, semicolons, comments and backslashes in the name of a table, in the name of a column, in
a value and in a predicate. -/
theorem isSafe_text_marks :
    let column : Column := { name := "na`me; --", owner := some "t`; /*", type := "text" }
    let table : Table := { name := "t`; /*", columns := [column] }
    let request : Request :=
      { method := "update", table := .byName "t`; /*"
        fields := .values [(.byName "na`me; --", .text "'; drop table users; -- \\")]
        modifiers :=
          { predicate := some (.comparison .eq (.column column.key) (.value (.text "\\' # \""))) } }
    let catalog : Catalog := ⟨true, [table]⟩
    request.validate catalog = .ok ⟨.update, some table⟩ ∧
      ∃ text, request.text catalog = .ok text ∧ IsSafe text :=
  ⟨rfl, isSafe_text rfl rfl nofun⟩

end Request

end SchemaQuery
