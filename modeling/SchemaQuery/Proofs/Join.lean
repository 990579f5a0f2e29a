import SchemaQuery.Join
import SchemaQuery.Proofs.Request.Spelling
import SchemaQuery.Proofs.Request.Statement
import SchemaQuery.Proofs.Table

/-! Chains of joins.  Each join qualifies the columns of its own two tables and leaves alone those
that an earlier one has qualified.  So a chain has the columns of all its tables, every one of which
can still be addressed, and a query writes it as the column of its own table. -/

namespace SchemaQuery

/-- One more table that a chain takes up. -/
structure JoinStep where
  table : Table
  on : Expr
  direction : JoinDirection
  asName : Option String := none

/-- A table of a chain, and the name that its columns go by there. -/
structure JoinPart where
  qualifier : String
  table : Table

/-- A column of a table of a chain, and the name that this table goes by there. -/
structure JoinColumn where
  qualifier : String
  column : Column
deriving DecidableEq

def JoinStep.part (step : JoinStep) : JoinPart := ⟨step.asName.getD step.table.name, step.table⟩

def JoinPart.columns (part : JoinPart) : List JoinColumn :=
  part.table.columns.map (⟨part.qualifier, ·⟩)

namespace JoinColumn

def name (c : JoinColumn) : String := c.qualifier ++ "." ++ c.column.name

/-- The column as a join makes it, before it gets an owner. -/
def unowned (c : JoinColumn) : Column :=
  { c.column with owner := none, name := c.name, constraints := [] }

/-- The column as the join of that name holds it. -/
def copyIn (c : JoinColumn) (joined : String) : Column :=
  { c.column with owner := some joined, name := c.name, constraints := [] }

/-- The column in a statement, under the name of its own table. -/
def text (c : JoinColumn) : String := MySql.qualifiedColumn ⟨some c.qualifier, c.column.name⟩

/-- The references to the column in the join of that name.  The column of the table itself is one
where the join takes the table up under its own name. -/
inductive Addressed (c : JoinColumn) (joined : String) : ColumnRef → Prop
  | name : Addressed c joined (.byName c.name)
  | copy : Addressed c joined (.byValue (c.copyIn joined))
  | value (h : c.column.owner = some c.qualifier) : Addressed c joined (.byValue c.column)

end JoinColumn

namespace Table

/-- Tables as they are made from columns of their own, none of whose names has a point. -/
structure IsBase (table : Table) : Prop where
  notJoined : table.joined = false
  names : table.columnNames.Nodup
  owned : ∀ column ∈ table.columns, column.owner = some table.name
  plain : ∀ column ∈ table.columns, hasPoint column.name = false

/-- The joins of a table with the next ones, from left to right. -/
def joinAll (first : Table) (steps : List JoinStep) : Except Error Table :=
  steps.foldlM (fun left step => left.join step.table step.on step.direction step.asName) first

def joinParts (first : Table) (steps : List JoinStep) : List JoinPart :=
  ⟨first.name, first⟩ :: steps.map JoinStep.part

/-- Whether a reference is to this column of the parts, in the join of that name. -/
def RefersTo (parts : List JoinPart) (joined : String) (reference : ColumnRef) (c : JoinColumn) :
    Prop :=
  c ∈ parts.flatMap JoinPart.columns ∧ c.Addressed joined reference

/-- Whether all these references find their columns in the join. -/
def Finds (joined : Table) (parts : List JoinPart) : Prop :=
  ∀ reference c, RefersTo parts joined.name reference c →
  joined.resolve reference = .ok (c.copyIn joined.name)

/-- A join of these tables and no others. -/
structure IsJoinOf (joined : Table) (parts : List JoinPart) : Prop where
  isJoin : joined.joined = true
  columns : joined.columns = (parts.flatMap JoinPart.columns).map (JoinColumn.copyIn · joined.name)

end Table

variable {parts : List JoinPart} {part : JoinPart} {c d : JoinColumn} {table left joined : Table}

/-! ### Qualified names -/

/-- The last point of a qualified name stands between the table and the column. -/
theorem qualified_injective {a b x y : String} (hx : hasPoint x = false) (hy : hasPoint y = false)
    (h : a ++ "." ++ x = b ++ "." ++ y) : a = b ∧ x = y := by
  have hcut : ∀ front rest : String, hasPoint rest = false →
      Text.cutLast '.' (front ++ "." ++ rest).toList = some (front.toList, rest.toList) := by
    intro front rest hrest
    have hmem : '.' ∉ rest.toList := by simpa [hasPoint] using hrest
    simpa using Text.cutLast_append hmem
  have hboth :=
    (hcut a x hx).symm.trans ((congrArg (Text.cutLast '.' ·.toList) h).trans (hcut b y hy))
  obtain ⟨hfront, hrest⟩ := Prod.mk.inj (Option.some.inj hboth)
  exact ⟨String.toList_inj.mp hfront, String.toList_inj.mp hrest⟩

theorem splitFirst?_qualified {a : String} (h : hasPoint a = false) (x : String) :
    Text.splitFirst? '.' (a ++ "." ++ x) = some (a, x) := by
  have hmem : '.' ∉ a.toList := by simpa [hasPoint] using h
  have hcut : Text.cutFirst '.' (a ++ "." ++ x).toList = some (a.toList, x.toList) :=
    Text.cutFirst_eq_some_iff.mpr ⟨by simp, hmem⟩
  rw [Text.splitFirst?, hcut]
  simp

theorem splitFirst?_plain {x : String} (h : hasPoint x = false) :
    Text.splitFirst? '.' x = none := by
  have hmem : '.' ∉ x.toList := by simpa [hasPoint] using h
  rw [Text.splitFirst?, Text.cutFirst_eq_none_iff.mpr hmem, Option.map_none]

/-- A name that is already qualified is written as the column of the table that it names, whatever
the owner of the column. -/
theorem qualifiedColumn_name (hqualifier : hasPoint c.qualifier = false)
    (hplain : hasPoint c.column.name = false) (owner : Option String) :
    MySql.qualifiedColumn ⟨owner, c.name⟩ = c.text := by
  simp only [MySql.qualifiedColumn, JoinColumn.text, JoinColumn.name,
    splitFirst?_qualified hqualifier, splitFirst?_plain hplain]

/-! ### The columns of a chain -/

theorem plain_of_mem (hbase : ∀ part ∈ parts, part.table.IsBase)
    (hc : c ∈ parts.flatMap JoinPart.columns) : hasPoint c.column.name = false := by
  obtain ⟨part, hpart, hc⟩ := List.mem_flatMap.mp hc
  obtain ⟨column, hcolumn, rfl⟩ := List.mem_map.mp hc
  exact (hbase part hpart).plain column hcolumn

theorem plain_qualifier_of_mem (hplain : ∀ part ∈ parts, hasPoint part.qualifier = false)
    (hc : c ∈ parts.flatMap JoinPart.columns) : hasPoint c.qualifier = false := by
  obtain ⟨part, hpart, hc⟩ := List.mem_flatMap.mp hc
  obtain ⟨column, -, rfl⟩ := List.mem_map.mp hc
  exact hplain part hpart

/-- Different tables of a chain go by different names, and so do the columns of one table. -/
theorem nodup_names (hbase : ∀ part ∈ parts, part.table.IsBase)
    (hqualifiers : (parts.map JoinPart.qualifier).Nodup) :
    ((parts.flatMap JoinPart.columns).map JoinColumn.name).Nodup := by
  rw [List.map_flatMap]
  refine List.nodup_flatMap.mpr ⟨fun part hpart => ?_, ?_⟩
  · have hnames := (hbase part hpart).names
    rw [JoinPart.columns, List.map_map]
    refine (List.Nodup.of_map _ hnames).map_on fun a ha b hb hab => ?_
    have hplain := (hbase part hpart).plain
    exact List.inj_on_of_nodup_map hnames ha hb
      (qualified_injective (hplain a ha) (hplain b hb) hab).2
  · have hdifferent : parts.Pairwise fun a b => a.qualifier ≠ b.qualifier :=
      List.pairwise_map.mp hqualifiers
    refine hdifferent.imp_of_mem fun {a b} ha hb hab name hleft hright => ?_
    obtain ⟨c, hc, rfl⟩ := List.mem_map.mp hleft
    obtain ⟨d, hd, hname⟩ := List.mem_map.mp hright
    obtain ⟨x, hx, rfl⟩ := List.mem_map.mp hc
    obtain ⟨y, hy, rfl⟩ := List.mem_map.mp hd
    exact hab (qualified_injective ((hbase b hb).plain y hy) ((hbase a ha).plain x hx) hname).1.symm

/-! ### Taking up one more table -/

namespace Column

theorem joinedUnder_plain {column : Column} (h : hasPoint column.name = false)
    (qualifier : String) :
    column.joinedUnder qualifier = JoinColumn.unowned ⟨qualifier, column⟩ := by
  simp only [joinedUnder, h, JoinColumn.unowned, JoinColumn.name, Bool.false_eq_true, if_false]

/-- A column of a join is qualified already. -/
theorem joinedUnder_copyIn (c : JoinColumn) (joined qualifier : String) :
    (c.copyIn joined).joinedUnder qualifier = c.unowned := by
  have hpoint : hasPoint c.name = true := hasPoint_qualified _ _
  simp only [joinedUnder, JoinColumn.copyIn, JoinColumn.unowned, hpoint, if_true]

end Column

namespace Table

theorem map_joinedUnder_of_isBase (h : table.IsBase) (qualifier : String) :
    table.columns.map (Column.joinedUnder qualifier) =
      (JoinPart.columns ⟨qualifier, table⟩).map JoinColumn.unowned := by
  rw [JoinPart.columns, List.map_map]
  exact List.map_congr_left fun column hc => Column.joinedUnder_plain (h.plain column hc) qualifier

theorem IsJoinOf.map_joinedUnder (h : joined.IsJoinOf parts) (qualifier : String) :
    joined.columns.map (Column.joinedUnder qualifier) =
      (parts.flatMap JoinPart.columns).map JoinColumn.unowned := by
  rw [h.columns, List.map_map]
  exact List.map_congr_left fun c _ => Column.joinedUnder_copyIn c joined.name qualifier

/-- A table whose columns a join would take up as those of some parts can be joined with one more
part, under a name of its own. -/
theorem exists_join {step : JoinStep} (hleft : left.columns.map (Column.joinedUnder left.name) =
      (parts.flatMap JoinPart.columns).map JoinColumn.unowned)
    (hbase : ∀ part ∈ parts ++ [step.part], part.table.IsBase)
    (hqualifiers : ((parts ++ [step.part]).map JoinPart.qualifier).Nodup)
    (hon : step.on.isComparison = true) :
    ∃ joined, left.join step.table step.on step.direction step.asName = .ok joined ∧
      joined.IsJoinOf (parts ++ [step.part]) := by
  have hright : step.table.columns.map (Column.joinedUnder step.part.qualifier) =
      step.part.columns.map JoinColumn.unowned :=
    map_joinedUnder_of_isBase (hbase step.part (by simp)) step.part.qualifier
  have hcolumns : left.columns.map (Column.joinedUnder left.name) ++
        step.table.columns.map (Column.joinedUnder step.part.qualifier) =
      ((parts ++ [step.part]).flatMap JoinPart.columns).map JoinColumn.unowned := by
    rw [hleft, hright, List.flatMap_append, List.map_append, List.flatMap_singleton]
  have hnames : (((parts ++ [step.part]).flatMap JoinPart.columns).map JoinColumn.unowned).map
      Column.name = ((parts ++ [step.part]).flatMap JoinPart.columns).map JoinColumn.name := by
    rw [List.map_map]
    rfl
  have hdistinct := firstRepeated?_eq_none_iff.mpr
    ⟨nodup_names hbase hqualifiers, fun name _ => List.not_mem_nil⟩
  let name := left.joinText step.table step.on step.direction step.asName
  let columns := ((parts ++ [step.part]).flatMap JoinPart.columns).map JoinColumn.unowned
  have hjoin : left.join step.table step.on step.direction step.asName =
      .ok { name, columns := columns.map (Column.ownedBy · name), joined := true } := by
    rw [join, if_pos hon]
    change makeJoined name
      (_ ++ step.table.columns.map (Column.joinedUnder step.part.qualifier)) = _
    rw [hcolumns, makeJoined, make, hnames, hdistinct]
    rfl
  refine ⟨_, hjoin, rfl, ?_⟩
  rw [List.map_map]
  rfl

/-- A join of some parts is joined with further ones to a join of them all. -/
theorem IsJoinOf.exists_joinAll {steps : List JoinStep} (h : left.IsJoinOf parts)
    (hbase : ∀ part ∈ parts ++ steps.map JoinStep.part, part.table.IsBase)
    (hqualifiers : ((parts ++ steps.map JoinStep.part).map JoinPart.qualifier).Nodup)
    (hon : ∀ step ∈ steps, step.on.isComparison = true) :
    ∃ joined, left.joinAll steps = .ok joined ∧
      joined.IsJoinOf (parts ++ steps.map JoinStep.part) := by
  induction steps generalizing left parts with
  | nil => exact ⟨left, rfl, by simpa using h⟩
  | cons step rest ih =>
    obtain ⟨hstep, hrest⟩ := List.forall_mem_cons.mp hon
    have hparts : parts ++ (step :: rest).map JoinStep.part =
        (parts ++ [step.part]) ++ rest.map JoinStep.part := by simp
    rw [hparts] at hbase hqualifiers ⊢
    rw [List.map_append] at hqualifiers
    obtain ⟨next, hnext, hjoin⟩ := exists_join (h.map_joinedUnder left.name)
      (fun part hpart => hbase part (List.mem_append_left _ hpart)) hqualifiers.of_append_left hstep
    obtain ⟨joined, hjoined, hall⟩ := ih hjoin hbase (by rwa [List.map_append]) hrest
    exact ⟨joined, by rw [joinAll, List.foldlM_cons, hnext, ok_bind]; exact hjoined, hall⟩

/-- Every chain with at least one join can be made. -/
theorem exists_joinAll {first : Table} {steps : List JoinStep} (hne : steps ≠ [])
    (hbase : ∀ part ∈ first.joinParts steps, part.table.IsBase)
    (hqualifiers : ((first.joinParts steps).map JoinPart.qualifier).Nodup)
    (hon : ∀ step ∈ steps, step.on.isComparison = true) :
    ∃ joined, first.joinAll steps = .ok joined ∧ joined.IsJoinOf (first.joinParts steps) := by
  cases steps with
  | nil => exact absurd rfl hne
  | cons step rest =>
    obtain ⟨hstep, hrest⟩ := List.forall_mem_cons.mp hon
    have hparts : first.joinParts (step :: rest) =
        ([⟨first.name, first⟩] ++ [step.part]) ++ rest.map JoinStep.part := rfl
    rw [hparts] at hbase hqualifiers ⊢
    have hfirst : first.columns.map (Column.joinedUnder first.name) =
        (List.flatMap JoinPart.columns [⟨first.name, first⟩]).map JoinColumn.unowned := by
      rw [List.flatMap_singleton]
      exact map_joinedUnder_of_isBase (hbase ⟨first.name, first⟩ (by simp)) first.name
    obtain ⟨next, hnext, hjoin⟩ := exists_join hfirst
      (fun part hpart => hbase part (List.mem_append_left _ hpart))
      (by rw [List.map_append] at hqualifiers; exact hqualifiers.of_append_left) hstep
    obtain ⟨joined, hjoined, hall⟩ := hjoin.exists_joinAll hbase hqualifiers hrest
    exact ⟨joined, by rw [joinAll, List.foldlM_cons, hnext, ok_bind]; exact hjoined, hall⟩

/-! ### Looking up and writing a column of a join -/

theorem RefersTo.isAll {reference : ColumnRef} (h : RefersTo parts joined.name reference c) :
    reference.isAll = false := by
  obtain ⟨-, href⟩ := h
  cases href with
  | name => exact isAll_qualified _ _
  | copy => rfl
  | value => rfl

/-- Every reference to a column of a join finds it. -/
theorem IsJoinOf.resolve_eq (h : joined.IsJoinOf parts) (hbase : ∀ part ∈ parts, part.table.IsBase)
    (hqualifiers : (parts.map JoinPart.qualifier).Nodup) {reference : ColumnRef}
    (href : RefersTo parts joined.name reference c) :
    joined.resolve reference = .ok (c.copyIn joined.name) := by
  obtain ⟨hc, href⟩ := href
  have hnames : joined.columnNames = (parts.flatMap JoinPart.columns).map JoinColumn.name := by
    rw [columnNames, h.columns, List.map_map]
    rfl
  have hdistinct : joined.columnNames.Nodup := hnames ▸ nodup_names hbase hqualifiers
  have hmem : c.copyIn joined.name ∈ joined.columns := h.columns ▸ List.mem_map_of_mem hc
  have hnamed : joined.columnNamed? c.name = some (c.copyIn joined.name) :=
    columnNamed?_of_mem hdistinct hmem
  have hresolve : joined.resolve? reference = some (c.copyIn joined.name) := by
    cases href with
    | name => simp only [resolve?, column?, hnamed]
    | copy => exact resolve?_byValue hnamed
    | value howner =>
      -- The column itself is not in the join, whose names all have points, so its qualified name
      -- counts.
      have hplain := plain_of_mem hbase hc
      have hown : (joined.columns.find? fun column =>
          column.owner == c.column.owner && column.name == c.column.name &&
            column.type == c.column.type) = none := by
        refine List.find?_eq_none.mpr fun column hcolumn hsame => ?_
        obtain ⟨d, -, rfl⟩ := List.mem_map.mp (h.columns ▸ hcolumn)
        have hname : d.name = c.column.name := by simp_all [JoinColumn.copyIn]
        have hpoint : hasPoint d.name = true := hasPoint_qualified _ _
        rw [hname, hplain] at hpoint
        cases hpoint
      have hqualified : c.column.qualifiedName = c.name := by
        simp [Column.qualifiedName, Column.key, ColumnKey.qualified, howner, hplain,
          JoinColumn.name]
      simp only [resolve?, hown, h.isJoin, hqualified, column?, hnamed, if_true]
  rw [resolve, hresolve]

end Table

namespace Request

def queryMethod (distinct : Bool) : Method := if distinct then .distinct else .select

/-- A query of columns of a join, which may be grouped and ordered by such columns.  References may
take any form, and a single column needs no list. -/
structure QueriesJoin (request : Request) (joined : Table) (parts : List JoinPart) (distinct : Bool)
    (columns : List JoinColumn) (groupBy orderBy : Option JoinColumn) : Prop where
  words : Method.ofText request.method = .ok (queryMethod distinct)
  table : request.table = .byValue joined
  fields : ∃ references, (request.fields = .columns references ∨
      ∃ reference, references = [reference] ∧ request.fields = .column reference) ∧
    List.Forall₂ (Table.RefersTo parts joined.name) references columns
  groupBy : Option.Rel (Table.RefersTo parts joined.name) request.modifiers.groupBy groupBy
  orderBy : Option.Rel (Table.RefersTo parts joined.name) request.modifiers.orderBy orderBy
  predicate : ∀ predicate ∈ request.modifiers.predicate, predicate.isComparison = true
  limit : ∀ limit ∈ request.modifiers.limit, 0 < limit.toInt

/-- The text of a query of columns of a join. -/
def joinQueryText (request : Request) (joined : Table) (distinct : Bool) (columns : List JoinColumn)
    (groupBy orderBy : Option JoinColumn) : String :=
  "select " ++ (if distinct then "distinct " else "") ++
    ", ".intercalate (columns.map JoinColumn.text) ++ " from " ++ joined.name
    ++ (optionalClause " where " (request.modifiers.predicate.map Expr.text)
      ++ optionalClause " group by " (groupBy.map JoinColumn.text)
      ++ optionalClause " order by " (orderBy.map JoinColumn.text)
      ++ optionalClause " limit " (request.modifiers.limit.map fun limit => toString limit.toInt))
    ++ ";"

/-- The statement of such a query, which names the copies of the columns. -/
def joinQuery (request : Request) (joined : Table) (distinct : Bool) (columns : List JoinColumn)
    (groupBy orderBy : Option JoinColumn) : Statement :=
  .select distinct (.columns (columns.map JoinColumn.name)) (.join joined.name)
    { predicate := request.modifiers.predicate
      groupBy := groupBy.map fun c => (c.copyIn joined.name).key
      orderBy := orderBy.map fun c => (c.copyIn joined.name).key
      limit := request.modifiers.limit }

variable {request : Request} {method : Method} {distinct : Bool} {columns : List JoinColumn}
  {groupBy orderBy : Option JoinColumn}

theorem orderKey_of_refersTo (hfinds : joined.Finds parts) {reference : Option ColumnRef}
    {column : Option JoinColumn}
    (h : Option.Rel (Table.RefersTo parts joined.name) reference column) :
    orderKey true joined reference = .ok (column.map fun c => (c.copyIn joined.name).key) := by
  cases h with
  | none => rfl
  | some h => simp only [orderKey, if_true, hfinds _ _ h, map_ok, Option.map_some]

theorem fitOrder_of_refersTo (hfinds : joined.Finds parts) {reference : Option ColumnRef}
    {column : Option JoinColumn}
    (h : Option.Rel (Table.RefersTo parts joined.name) reference column) :
    fitOrder true ⟨method, some joined⟩ reference = .ok () := by
  cases h with
  | none => rfl
  | some h =>
    change (joined.resolve _ *> pure ()) = .ok ()
    rw [hfinds _ _ h]
    rfl

theorem columnNames_of_refersTo (hfinds : joined.Finds parts) {references : List ColumnRef}
    (h : List.Forall₂ (Table.RefersTo parts joined.name) references columns) :
    references.mapM (columnName joined) = .ok (columns.map JoinColumn.name) := by
  refine mapM_eq_ok_iff.mpr (List.forall₂_map_right_iff.mpr (h.imp fun reference c href => ?_))
  rw [columnName, hfinds reference c href]
  rfl

namespace QueriesJoin

theorem resolve_eq (h : request.QueriesJoin joined parts distinct columns groupBy orderBy)
    {catalog : Catalog} (hopen : catalog.isOpen = true) (hjoined : joined.joined = true) :
    request.resolve catalog = .ok ⟨queryMethod distinct, some joined⟩ := by
  refine resolve_eq_ok_iff.mpr ⟨hopen, h.words, ?_⟩
  rw [h.table]
  cases distinct <;> simp [resolveTable, queryMethod, Method.readsRows, hjoined]

theorem projection_eq (h : request.QueriesJoin joined parts distinct columns groupBy orderBy)
    (hfinds : joined.Finds parts) :
    projection (queryMethod distinct) joined request.fields =
      .ok (.columns (columns.map JoinColumn.name)) := by
  obtain ⟨references, hfields, hrefs⟩ := h.fields
  obtain hfields | ⟨reference, rfl, hfields⟩ := hfields
  · have hnames := columnNames_of_refersTo hfinds hrefs
    cases distinct <;> simp [projection, queryMethod, hfields, hnames]
  · obtain _ | ⟨href, ⟨⟩⟩ := hrefs
    have hname : columnName joined reference = .ok _ :=
      congrArg (Except.map Column.name) (hfinds _ _ href)
    cases distinct <;> simp [projection, queryMethod, hfields, href.isAll, hname, JoinColumn.copyIn]

theorem fitFields (h : request.QueriesJoin joined parts distinct columns groupBy orderBy)
    (hfinds : joined.Finds parts) (catalog : Catalog) :
    Request.fitFields catalog ⟨queryMethod distinct, some joined⟩ request = .ok () := by
  obtain ⟨references, hfields, hrefs⟩ := h.fields
  obtain hfields | ⟨reference, rfl, hfields⟩ := hfields
  · have hall :
        (references.forM fun reference => (joined.resolve reference).map fun _ => ()) = .ok () := by
      refine forM_eq_ok_iff.mpr fun reference hmem => ?_
      obtain ⟨name, hname⟩ :=
        exists_mapM_eq_ok_iff.mp ⟨_, columnNames_of_refersTo hfinds hrefs⟩ reference hmem
      obtain ⟨column, hcolumn, -⟩ := map_eq_ok_iff.mp hname
      rw [hcolumn, map_ok]
    cases distinct <;> simp only [Request.fitFields, Request.fitQuery, hfields] <;> exact hall
  · obtain _ | ⟨href, ⟨⟩⟩ := hrefs
    have hone : (if reference.isAll then pure () else joined.resolve reference *> pure ()) =
        (.ok () : Except Error Unit) := by
      rw [href.isAll, hfinds _ _ href]
      rfl
    cases distinct <;> simp only [Request.fitFields, Request.fitQuery, hfields] <;> exact hone

/-- Nothing is wrong with such a query. -/
theorem validate_eq (h : request.QueriesJoin joined parts distinct columns groupBy orderBy)
    {catalog : Catalog} (hopen : catalog.isOpen = true) (hjoined : joined.joined = true)
    (hfinds : joined.Finds parts) :
    request.validate catalog = .ok ⟨queryMethod distinct, some joined⟩ := by
  have hfields : checkFields (queryMethod distinct) request = .ok () := by
    obtain ⟨references, hfields | ⟨reference, -, hfields⟩, -⟩ := h.fields <;>
      cases distinct <;> simp [checkFields, queryMethod, hfields]
  have hpredicate : checkPredicate (queryMethod distinct) request.modifiers = .ok () := by
    cases hp : request.modifiers.predicate with
    | none => simp only [checkPredicate, hp]
    | some predicate => simp [checkPredicate, hp, h.predicate predicate hp]
  have hlimit : fitLimit (queryMethod distinct) request.modifiers = .ok () := by
    cases hl : request.modifiers.limit with
    | none => simp only [fitLimit, hl]
    | some limit => simp [fitLimit, hl, h.limit limit hl]
  have horders : (queryMethod distinct).takesGroupBy = true ∧
      (queryMethod distinct).takesOrderBy = true := by
    cases distinct <;> exact ⟨rfl, rfl⟩
  refine validate_eq_ok_iff.mpr ⟨h.resolve_eq hopen hjoined, ?_, ?_⟩
  · exact checkShape_eq_ok_iff.mpr ⟨hfields, hpredicate⟩
  · refine checkSchema_eq_ok_iff.mpr ⟨h.fitFields hfinds catalog, hlimit, ?_, ?_⟩
    · rw [horders.1]
      exact fitOrder_of_refersTo hfinds h.groupBy
    · rw [horders.2]
      exact fitOrder_of_refersTo hfinds h.orderBy

theorem statementOf_eq (h : request.QueriesJoin joined parts distinct columns groupBy orderBy)
    (hjoined : joined.joined = true) (hfinds : joined.Finds parts) :
    statementOf ⟨queryMethod distinct, some joined⟩ request =
      .ok (request.joinQuery joined distinct columns groupBy orderBy) := by
  have htarget : request.table.target = .join joined.name := by
    rw [h.table]
    exact if_pos hjoined
  have hprojection := h.projection_eq hfinds
  have hgroup := orderKey_of_refersTo hfinds h.groupBy
  have horder := orderKey_of_refersTo hfinds h.orderBy
  have hclauses : clauses (queryMethod distinct) joined request.modifiers = .ok
      { predicate := request.modifiers.predicate
        groupBy := groupBy.map fun c => (c.copyIn joined.name).key
        orderBy := orderBy.map fun c => (c.copyIn joined.name).key
        limit := request.modifiers.limit } := by
    cases distinct <;> simp [clauses, queryMethod, Method.takesGroupBy, Method.readsRows,
      Method.takesOrderBy, Method.takesWhere, Method.takesLimit, hgroup, horder]
  have hsteps : statementOf ⟨queryMethod distinct, some joined⟩ request = (do
      let projection ← projection (queryMethod distinct) joined request.fields
      let clauses ← clauses (queryMethod distinct) joined request.modifiers
      return .select distinct projection request.table.target clauses) := by
    cases distinct <;> rfl
  rw [hsteps, hprojection, ok_bind, hclauses, ok_bind, htarget]
  rfl

end QueriesJoin

/-- The copies of the columns are written as the columns of their own tables. -/
theorem text_joinQuery (hplain : ∀ c : JoinColumn, c ∈ columns ∨ c ∈ groupBy ∨ c ∈ orderBy →
      hasPoint c.qualifier = false ∧ hasPoint c.column.name = false) :
    (request.joinQuery joined distinct columns groupBy orderBy).text =
      request.joinQueryText joined distinct columns groupBy orderBy := by
  have hcolumns : (columns.map JoinColumn.name).map columnText = columns.map JoinColumn.text := by
    rw [List.map_map]
    refine List.map_congr_left fun c hc => ?_
    obtain ⟨hqualifier, hname⟩ := hplain c (.inl hc)
    exact qualifiedColumn_name hqualifier hname none
  have hkey : ∀ column : Option JoinColumn, (∀ c ∈ column, c ∈ groupBy ∨ c ∈ orderBy) →
      (column.map fun c => (c.copyIn joined.name).key).map MySql.qualifiedColumn =
        column.map JoinColumn.text := by
    intro column hmem
    rw [Option.map_map]
    refine Option.map_congr fun c hc => ?_
    obtain ⟨hqualifier, hname⟩ := hplain c (.inr (hmem c hc))
    exact qualifiedColumn_name hqualifier hname (some joined.name)
  have hgroup := hkey groupBy fun c hc => .inl hc
  have horder := hkey orderBy fun c hc => .inr hc
  simp only [joinQuery, Statement.text_select, Projection.text, hcolumns, Target.text, Clauses.text,
    hgroup, horder, joinQueryText]

theorem QueriesJoin.mem_columns
    (h : request.QueriesJoin joined parts distinct columns groupBy orderBy) :
    ∀ c : JoinColumn, c ∈ columns ∨ c ∈ groupBy ∨ c ∈ orderBy →
      c ∈ parts.flatMap JoinPart.columns := by
  obtain ⟨references, -, hrefs⟩ := h.fields
  have hmany : ∀ c ∈ columns, c ∈ parts.flatMap JoinPart.columns :=
    ((List.forall₂_and_left _ _).mp hrefs.flip).1
  have hone : ∀ {reference : Option ColumnRef} {column : Option JoinColumn},
      Option.Rel (Table.RefersTo parts joined.name) reference column →
        ∀ c ∈ column, c ∈ parts.flatMap JoinPart.columns := by
    intro reference column hrel c hc
    cases hc
    cases hrel with
    | some href => exact href.1
  rintro c (hc | hc | hc)
  · exact hmany c hc
  · exact hone h.groupBy c hc
  · exact hone h.orderBy c hc

end Request

namespace Table

/-! ### Addressing the columns of a chain -/

/-- Base tables under different names can be joined in a chain, whatever the comparisons and
directions.  The join has the columns of all of them, in order and without constraints, under
qualified names; its references find them, among these the columns themselves of a table that goes
by its own name.  If none of those names has a point, every query of columns of the join is valid
and writes each as the column of its table. -/
theorem joinAll_addressable (first : Table) (steps : List JoinStep) (hne : steps ≠ [])
    (hbase : ∀ part ∈ first.joinParts steps, part.table.IsBase)
    (hqualifiers : ((first.joinParts steps).map JoinPart.qualifier).Nodup)
    (hon : ∀ step ∈ steps, step.on.isComparison = true) :
    ∃ joined, first.joinAll steps = .ok joined ∧
      joined.columns = (first.joinParts steps).flatMap (fun part =>
        part.table.columns.map fun column =>
          { column with
            owner := some joined.name, name := part.qualifier ++ "." ++ column.name,
            constraints := [] }) ∧
      (∀ reference c, RefersTo (first.joinParts steps) joined.name reference c →
        joined.resolve reference = .ok (c.copyIn joined.name)) ∧
      ((∀ part ∈ first.joinParts steps, hasPoint part.qualifier = false) →
        ∀ (catalog : Catalog) (request : Request) (distinct : Bool) (columns : List JoinColumn)
          (groupBy orderBy : Option JoinColumn), catalog.isOpen = true →
          request.QueriesJoin joined (first.joinParts steps) distinct columns groupBy orderBy →
          request.validate catalog = .ok ⟨Request.queryMethod distinct, some joined⟩ ∧
            request.text catalog =
              .ok (request.joinQueryText joined distinct columns groupBy orderBy)) := by
  obtain ⟨joined, hjoined, hjoin⟩ := exists_joinAll hne hbase hqualifiers hon
  have hfinds : joined.Finds (first.joinParts steps) :=
    fun _ _ => hjoin.resolve_eq hbase hqualifiers
  refine ⟨joined, hjoined, ?_, hfinds, ?_⟩
  · rw [hjoin.columns, List.map_flatMap]
    simp only [JoinPart.columns, List.map_map]
    rfl
  · intro hplain catalog request distinct columns groupBy orderBy hopen hquery
    have hpoints : ∀ c : JoinColumn, c ∈ columns ∨ c ∈ groupBy ∨ c ∈ orderBy →
        hasPoint c.qualifier = false ∧ hasPoint c.column.name = false := by
      intro c hc
      have hmem := hquery.mem_columns c hc
      exact ⟨plain_qualifier_of_mem hplain hmem, plain_of_mem hbase hmem⟩
    refine ⟨hquery.validate_eq hopen hjoin.isJoin hfinds, ?_⟩
    rw [Request.text_of_resolve (hquery.resolve_eq hopen hjoin.isJoin)
      (hquery.statementOf_eq hjoin.isJoin hfinds), Request.text_joinQuery hpoints]

/-- People, each with a manager. -/
def people : Table :=
  { name := "people"
    columns := [{ name := "id", owner := some "people", type := "int", nullable := false },
      { name := "manager", owner := some "people", type := "int" }] }

/-- Orders, each of a person. -/
def personalOrders : Table :=
  { name := "orders"
    columns := [{ name := "id", owner := some "orders", type := "int", nullable := false },
      { name := "person", owner := some "orders", type := "int" }] }

/-- The people of the orders, and their managers, who are people too. -/
def withManagers : List JoinStep :=
  [{ table := people, direction := .inner
     on := .comparison .eq (.column ⟨some "orders", "person"⟩) (.column ⟨some "people", "id"⟩) },
   { table := people, direction := .left, asName := some "boss"
     on := .comparison .eq (.column ⟨some "people", "manager"⟩) (.column ⟨some "boss", "id"⟩) }]

/-- The identifiers of order and person, ordered by that of the manager. -/
def managersQuery (joined : Table) : Request :=
  { method := "select", table := .byValue joined
    fields := .columns [.byName "orders.id",
      .byValue { name := "id", owner := some "people", type := "int", nullable := false }]
    modifiers := { orderBy := some (.byName "boss.id"), limit := some 10 } }

theorem queriesJoin_managersQuery (joined : Table) :
    (managersQuery joined).QueriesJoin joined (personalOrders.joinParts withManagers) false
      [⟨"orders", { name := "id", owner := some "orders", type := "int", nullable := false }⟩,
        ⟨"people", { name := "id", owner := some "people", type := "int", nullable := false }⟩]
      none
      (some ⟨"boss", { name := "id", owner := some "people", type := "int", nullable := false }⟩)
      where
  words := (by decide +kernel : Method.ofText "select" = .ok .select)
  table := rfl
  fields := ⟨_, .inl rfl, .cons ⟨by decide, .name⟩ (.cons ⟨by decide, .value rfl⟩ .nil)⟩
  groupBy := .none
  orderBy := .some ⟨by decide, .name⟩
  predicate := nofun
  limit := fun _ h => Option.some.inj h ▸ (by decide : 0 < (10 : Int64).toInt)

/-- The people are taken up twice, once under their own name and once under another. -/
theorem joinAll_addressable_people : withManagers ≠ [] ∧
    (∀ part ∈ personalOrders.joinParts withManagers, part.table.IsBase) ∧
    ((personalOrders.joinParts withManagers).map JoinPart.qualifier).Nodup ∧
    (∀ step ∈ withManagers, step.on.isComparison = true) ∧
    (∀ part ∈ personalOrders.joinParts withManagers, hasPoint part.qualifier = false) ∧
    ∃ joined, personalOrders.joinAll withManagers = .ok joined ∧
      joined.columnNames =
        ["orders.id", "orders.person", "people.id", "people.manager", "boss.id", "boss.manager"] ∧
      (managersQuery joined).text ⟨true, []⟩ =
        .ok ("select orders.id, people.id from " ++ joined.name ++
          " order by boss.id limit 10;") := by
  have hbase : ∀ part ∈ personalOrders.joinParts withManagers, part.table.IsBase := by
    have hpeople : people.IsBase := ⟨rfl, by decide, by decide, by decide⟩
    have horders : personalOrders.IsBase := ⟨rfl, by decide, by decide, by decide⟩
    simpa [joinParts, withManagers, JoinStep.part] using ⟨horders, hpeople⟩
  have hqualifiers : ((personalOrders.joinParts withManagers).map JoinPart.qualifier).Nodup := by
    decide
  have hon : ∀ step ∈ withManagers, step.on.isComparison = true := by decide
  have hplain : ∀ part ∈ personalOrders.joinParts withManagers,
      hasPoint part.qualifier = false := by
    decide
  obtain ⟨joined, hjoined, hcolumns, -, hqueries⟩ :=
    joinAll_addressable personalOrders withManagers (by decide) hbase hqualifiers hon
  obtain ⟨-, htext⟩ :=
    hqueries hplain ⟨true, []⟩ _ false _ none _ rfl (queriesJoin_managersQuery joined)
  refine ⟨by decide, hbase, hqualifiers, hon, hplain, joined, hjoined, ?_, ?_⟩
  · rw [columnNames, hcolumns]
    rfl
  · rw [htext, Request.joinQueryText, String.append_assoc]
    rfl

end Table

end SchemaQuery
