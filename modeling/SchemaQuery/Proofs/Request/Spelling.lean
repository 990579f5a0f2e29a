import SchemaQuery.Proofs.Request.Modifiers
import SchemaQuery.Proofs.Text.Cut

/-! The spellings of a reference.  A table is referred to by its name or by any value of that name,
and a column by its name, with or without the name of its table in front, or by its value.  Which
spelling a request uses makes no difference to it. -/

namespace SchemaQuery

/-- The references to a column in a request on its table. -/
inductive Table.Spells (table : Table) (column : Column) : ColumnRef → Prop
  | bare : Spells table column (.byName column.name)
  | qualified : Spells table column (.byName (table.name ++ "." ++ column.name))
  | value : Spells table column (.byValue column)

/-- Whether two references are the same or to the same column of the table of that name, where the
name of the column is none of the words for every column or for the first position. -/
def Catalog.SameColumn (catalog : Catalog) (name : String) (a b : ColumnRef) : Prop :=
  a = b ∨ ∃ table column, catalog.table? name = some table ∧
    table.columnNamed? column.name = some column ∧ (ColumnRef.byName column.name).isAll = false ∧
      (ColumnRef.byName column.name).isFirst = false ∧ table.Spells column a ∧ table.Spells column b

def TableRef.isJoin : TableRef → Bool
  | .byName _ => false
  | .byValue table => table.joined

/-- Whether two references are to a table of the same name and none of them to a join; a new table
has to be the same. -/
def TableRef.SameTable (method : Method) (a b : TableRef) : Prop :=
  match method with
  | .createTable _ _ => a = b
  | _ => a.name = b.name ∧ a.isJoin = false ∧ b.isJoin = false

/-- Requests that differ only in how they refer to their table and to its columns. -/
structure Request.Respelled (catalog : Catalog) (a b : Request) : Prop where
  words : a.method = b.method
  table : ∀ method, Method.ofText a.method = .ok method → TableRef.SameTable method a.table b.table
  fields : Fields.Agree (catalog.SameColumn a.table.name) a.fields b.fields
  definitions : ∀ method, Method.ofText a.method = .ok method → method.refersToColumns = false →
    a.fields = b.fields
  groupBy : Option.Rel (catalog.SameColumn a.table.name) a.modifiers.groupBy b.modifiers.groupBy
  orderBy : Option.Rel (catalog.SameColumn a.table.name) a.modifiers.orderBy b.modifiers.orderBy
  after : Option.Rel (catalog.SameColumn a.table.name) a.modifiers.after b.modifiers.after
  modifiers : b.modifiers = { a.modifiers with
    groupBy := b.modifiers.groupBy, orderBy := b.modifiers.orderBy, after := b.modifiers.after }

/-! ### Special words -/

theorem hasPoint_qualified (table name : String) : hasPoint (table ++ "." ++ name) = true := by
  simp [hasPoint]

/-- Letter case does not touch a point, so that words without one have no spelling with one. -/
theorem sameLetters_of_hasPoint {text word : String} (hword : hasPoint (Text.lower word) = false)
    (htext : hasPoint text = true) : Text.sameLetters text word = false := by
  have hpoint : hasPoint (Text.lower text) = true := by
    simp only [hasPoint, List.contains_iff_mem] at htext
    simp only [hasPoint, Text.lower, String.toList_ofList, List.contains_iff_mem]
    exact List.mem_map.mpr ⟨'.', htext, rfl⟩
  by_contra hsame
  simp only [Text.sameLetters, Bool.not_eq_false, beq_iff_eq] at hsame
  rw [hsame, hword] at hpoint
  cases hpoint

theorem isAll_qualified (table name : String) :
    (ColumnRef.byName (table ++ "." ++ name)).isAll = false := by
  have hpoint := hasPoint_qualified table name
  have hstar : ¬(table ++ "." ++ name) = "*" := by
    intro h
    rw [h] at hpoint
    cases hpoint
  have hall : hasPoint (Text.lower "all") = false := rfl
  simp [ColumnRef.isAll, sameLetters_of_hasPoint hall hpoint, hstar]

theorem isFirst_qualified (table name : String) :
    (ColumnRef.byName (table ++ "." ++ name)).isFirst = false :=
  have hfirst : hasPoint (Text.lower "first") = false := rfl
  sameLetters_of_hasPoint hfirst (hasPoint_qualified table name)

/-! ### References to columns -/

namespace Table

variable {table : Table} {column : Column} {reference : ColumnRef}

theorem columnNamed?_eq_none (hpoints : ∀ c ∈ table.columns, hasPoint c.name = false)
    {name : String} (h : hasPoint name = true) : table.columnNamed? name = none := by
  refine List.find?_eq_none.mpr fun c hc hname => ?_
  rw [beq_iff_eq] at hname
  rw [← hname, hpoints c hc] at h
  cases h

theorem resolve?_byValue (hfound : table.columnNamed? column.name = some column) :
    table.resolve? (.byValue column) = some column := by
  -- Of the columns of its name the table holds it first, and so of those like it in all respects.
  obtain ⟨-, front, rest, hcolumns, hfront⟩ := List.find?_eq_some_iff_append.mp hfound
  have hown : (table.columns.find? fun c =>
      c.owner == column.owner && c.name == column.name && c.type == column.type) = some column := by
    refine List.find?_eq_some_iff_append.mpr ⟨by simp, front, rest, hcolumns, fun c hc => ?_⟩
    have hname := hfront c hc
    simp_all
  simp only [resolve?, hown]

/-- Every spelling of a column that the table holds stands for it. -/
theorem resolve_of_spells (hpoints : ∀ c ∈ table.columns, hasPoint c.name = false)
    (hfound : table.columnNamed? column.name = some column) (h : table.Spells column reference) :
    table.resolve reference = .ok column := by
  have hresolve : table.resolve? reference = some column := by
    cases h with
    | bare => simp only [resolve?, column?, hfound]
    | qualified =>
      have hnone := columnNamed?_eq_none hpoints (hasPoint_qualified table.name column.name)
      simp only [resolve?, column?, hnone, Text.after?_append, Option.bind_some, hfound]
    | value => exact resolve?_byValue hfound
  rw [resolve, hresolve]

theorem Spells.isAll (h : table.Spells column reference)
    (hname : (ColumnRef.byName column.name).isAll = false) : reference.isAll = false := by
  cases h with
  | bare => exact hname
  | qualified => exact isAll_qualified _ _
  | value => rfl

theorem Spells.isFirst (h : table.Spells column reference)
    (hname : (ColumnRef.byName column.name).isFirst = false) : reference.isFirst = false := by
  cases h with
  | bare => exact hname
  | qualified => exact isFirst_qualified _ _
  | value => rfl

end Table

variable {catalog : Catalog} {name : String}

/-- References to the same column cannot be told apart by a request on its table. -/
theorem Catalog.SameColumn.agree {table? : Option Table} {x y : ColumnRef}
    (h : catalog.SameColumn name x y)
    (hpoints : ∀ table ∈ catalog.tables, ∀ column ∈ table.columns, hasPoint column.name = false)
    (ht : ∀ table, table? = some table → catalog.table? name = some table) :
    ColumnRef.Agree table? x y := by
  rcases h with rfl | ⟨table, column, htable, hfound, hall, hfirst, hx, hy⟩
  · exact .refl _ _
  · refine ⟨fun other hother => ?_, ?_, ?_⟩
    · cases htable.symm.trans (ht other hother)
      have hplain := hpoints table (mem_of_findTable? htable)
      rw [Table.resolve_of_spells hplain hfound hx, Table.resolve_of_spells hplain hfound hy]
    · rw [hx.isAll hall, hy.isAll hall]
    · rw [hx.isFirst hfirst, hy.isFirst hfirst]

theorem Fields.Agree.imp {same same' : ColumnRef → ColumnRef → Prop} {f g : Fields}
    (h : Fields.Agree same f g) (himp : ∀ x y, same x y → same' x y) : Fields.Agree same' f g := by
  cases h with
  | nothing => exact .nothing
  | all => exact .all
  | column h => exact .column (himp _ _ h)
  | columns h => exact .columns (h.imp himp)
  | values h => exact .values (h.imp fun p q hpq => ⟨himp _ _ hpq.1, hpq.2⟩)
  | change h new => exact .change (himp _ _ h) new
  | constraint c => exact .constraint c

theorem optionRel_imp {α : Type} {same same' : α → α → Prop} {x y : Option α}
    (h : Option.Rel same x y) (himp : ∀ a b, same a b → same' a b) : Option.Rel same' x y := by
  cases h with
  | none => exact .none
  | some h => exact .some (himp _ _ h)

/-! ### References to tables -/

namespace Request

variable {a b : Request} {resolved : Resolved} {method : Method} {reference other : TableRef}

theorem resolveTable_byName (h : reference.isJoin = false) :
    resolveTable catalog method reference =
      resolveTable catalog method (.byName reference.name) := by
  cases reference with
  | byName name => rfl
  | byValue table =>
    have hjoined : table.joined = false := h
    cases method with
    | createTable => rfl
    | _ => simp [resolveTable, TableRef.name, hjoined]

theorem target_of_isJoin (h : reference.isJoin = false) :
    reference.target = .table reference.name := by
  cases reference with
  | byName name => rfl
  | byValue table =>
    have hjoined : table.joined = false := h
    simp [TableRef.target, hjoined, TableRef.name]

theorem resolveTable_eq (h : TableRef.SameTable method reference other) :
    resolveTable catalog method reference = resolveTable catalog method other := by
  cases method with
  | createTable temporary guarded => rw [show reference = other from h]
  | _ =>
    obtain ⟨hname, hr, ho⟩ := h
    rw [resolveTable_byName hr, resolveTable_byName ho, hname]

theorem target_eq (h : TableRef.SameTable method reference other) :
    reference.target = other.target := by
  cases method with
  | createTable temporary guarded => rw [show reference = other from h]
  | _ =>
    obtain ⟨hname, hr, ho⟩ := h
    rw [target_of_isJoin hr, target_of_isJoin ho, hname]

/-- The table that a request works on is the one of its name in the catalog. -/
theorem table?_of_resolveTable {table : Table} (hsame : TableRef.SameTable method reference other)
    (h : resolveTable catalog method reference = .ok (some table)) :
    catalog.table? reference.name = some table := by
  cases method with
  | createTable temporary guarded =>
    simp only [resolveTable] at h
    split_ifs at h
    cases h
  | showTables => cases h
  | _ =>
    obtain ⟨-, hr, -⟩ := hsame
    rw [resolveTable_byName hr] at h
    simp only [resolveTable, TableRef.name] at h
    split at h
    · next found hfound =>
      cases h
      exact hfound
    · cases h

theorem Respelled.agree (h : Respelled catalog a b)
    (hpoints : ∀ table ∈ catalog.tables, ∀ column ∈ table.columns, hasPoint column.name = false)
    (hr : a.resolve catalog = .ok resolved) : Agree resolved a b := by
  obtain ⟨-, hm, htable⟩ := resolve_eq_ok_iff.mp hr
  have hsame := h.table resolved.method hm
  have hagree (x y : ColumnRef) (hxy : catalog.SameColumn a.table.name x y) :
      ColumnRef.Agree resolved.table? x y :=
    hxy.agree hpoints fun table ht => table?_of_resolveTable hsame (by rw [htable, ht])
  refine ⟨target_eq hsame, ?_, h.fields.imp hagree, h.definitions _ hm, ?_⟩
  · rintro ⟨temporary, guarded, hcreate⟩
    rw [hcreate] at hsame
    exact hsame
  · have hgroup := optionRel_imp h.groupBy hagree
    have horder := optionRel_imp h.orderBy hagree
    have hafter := optionRel_imp h.after hagree
    rw [h.modifiers]
    exact {
      predicate := fun _ => rfl
      groupBy := fun _ => hgroup
      orderBy := fun _ => horder
      limit := fun _ => rfl
      temporary := fun _ => rfl
      clobber := fun _ => rfl
      after := fun _ => hafter
      newDefinition := fun _ _ => rfl
      name := fun _ => rfl
      foreign := fun _ => rfl }

theorem Respelled.resolve_eq (h : Respelled catalog a b) :
    a.resolve catalog = b.resolve catalog := by
  unfold resolve
  rw [← h.words]
  cases hm : Method.ofText a.method with
  | error fault => simp only [error_bind]
  | ok method => simp only [ok_bind, resolveTable_eq (h.table method hm)]

/-- In a catalog where no name of a column has a point, it makes no difference how a request spells
its references: it is valid, or rejected with the same error, and has the same text. -/
theorem validate_text_of_respelled
    (hpoints : ∀ table ∈ catalog.tables, ∀ column ∈ table.columns, hasPoint column.name = false)
    (h : Respelled catalog a b) :
    a.validate catalog = b.validate catalog ∧ a.text catalog = b.text catalog :=
  validate_text_eq h.resolve_eq fun _ hr => h.agree hpoints hr

/-- Orders in a catalog, and an old snapshot of them. -/
def ordersTable : Table :=
  { name := "orders"
    columns := [{ name := "id", owner := some "orders", type := "int" },
      { name := "total", owner := some "orders", type := "decimal(8,2)" }] }

/-- The identifiers and totals of the orders, with every reference by name. -/
def ordersByName : Request :=
  { method := "select", table := .byName "orders"
    fields := .columns [.byName "id", .byName "total"],
    modifiers := { orderBy := some (.byName "total") } }

/-- The same request with the table and a column by value, and the names of the others qualified. -/
def ordersByValue : Request :=
  { method := "select", table := .byValue { name := "orders", columns := [] }
    fields := .columns
      [.byValue { name := "id", owner := some "orders", type := "int" }, .byName "orders.total"]
    modifiers := { orderBy := some (.byName "orders.total") } }

theorem respelled_orders : Respelled ⟨true, [ordersTable]⟩ ordersByName ordersByValue := by
  have hid : Catalog.SameColumn ⟨true, [ordersTable]⟩ "orders" (.byName "id")
      (.byValue { name := "id", owner := some "orders", type := "int" }) :=
    .inr ⟨ordersTable, { name := "id", owner := some "orders", type := "int" }, rfl, rfl,
      by decide +kernel, by decide +kernel, .bare, .value⟩
  have htotal : Catalog.SameColumn ⟨true, [ordersTable]⟩ "orders" (.byName "total")
      (.byName "orders.total") :=
    .inr ⟨ordersTable, { name := "total", owner := some "orders", type := "decimal(8,2)" }, rfl,
      rfl, by decide +kernel, by decide +kernel, .bare, .qualified⟩
  have hselect : Method.ofText "select" = .ok .select := by decide +kernel
  refine ⟨rfl, ?_, .columns (.cons hid (.cons htotal .nil)), ?_, .none, .some htotal, .none, rfl⟩
  · intro method hm
    cases hselect.symm.trans hm
    exact ⟨rfl, rfl, rfl⟩
  · intro method hm hrefers
    cases hselect.symm.trans hm
    cases hrefers

theorem validate_text_of_respelled_orders :
    (∀ table ∈ [ordersTable], ∀ column ∈ table.columns, hasPoint column.name = false) ∧
      Respelled ⟨true, [ordersTable]⟩ ordersByName ordersByValue ∧
      ordersByName.text ⟨true, [ordersTable]⟩ =
        .ok "select id, total from `orders` order by orders.total;" ∧
      ordersByName.validate ⟨true, [ordersTable]⟩ = ordersByValue.validate ⟨true, [ordersTable]⟩ ∧
      ordersByName.text ⟨true, [ordersTable]⟩ = ordersByValue.text ⟨true, [ordersTable]⟩ := by
  have hpoints : ∀ table ∈ [ordersTable], ∀ column ∈ table.columns,
      hasPoint column.name = false := by
    decide +kernel
  exact ⟨hpoints, respelled_orders, by decide +kernel,
    validate_text_of_respelled hpoints respelled_orders⟩

end Request

end SchemaQuery
