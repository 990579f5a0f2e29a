import Mathlib.Logic.Function.Basic
import SchemaQuery.Proofs.Database.Lifecycle
import SchemaQuery.Proofs.Database.Session

/-! Temporary tables.  That a table is temporary is said when it is created and never described, so
that every later snapshot has it from the former one.  The mark of a table then tells how the
statement that created it begins. -/

namespace SchemaQuery

open Database

variable {ε : Type} {engine : Engine ε} {database last : Database ε} {request : Request}
  {output : Output} {tables before middle after : List Table} {table : Table} {name : String}

/-! ### How tables are created -/

/-- The statement that creates a temporary table says so in its second word. -/
theorem text_createTable_iff {temporary guarded : Bool} {target : Target}
    {definitions : List String} :
    (∃ rest, (Statement.createTable temporary guarded target definitions).text =
      "create temporary table" ++ rest) ↔ temporary = true := by
  have htext : (Statement.createTable temporary guarded target definitions).text =
      "create " ++ temporaryWord temporary ++ "table " ++ target.text ++ " "
        ++ (if guarded then "if not exists " else "") ++ "(" ++ ", ".intercalate definitions ++
          ")" ++ ";" := rfl
  rw [htext]
  constructor
  · rintro ⟨rest, h⟩
    cases temporary with
    | true => rfl
    | false =>
      have hword : ("create temporary table" ++ rest).toList[8]? = some 'e' :=
        Statement.char_append rfl
      have hother : ("create temporary table" ++ rest).toList[8]? = some 'a' := by
        rw [← h]
        iterate 7 refine Statement.char_append ?_
        rfl
      cases hword.symm.trans hother
  · rintro rfl
    have hwords : "create " ++ temporaryWord true ++ "table " =
      "create temporary table" ++ " " := by decide
    rw [hwords]
    exact ⟨_, by simp only [String.append_assoc]; rfl⟩

/-! ### Marks -/

/-- Whether the tables have the same marks as before, under the same names, and none has come. -/
structure SameMarks (before after : List Table) : Prop where
  kept : ∀ name table, findTable? before name = some table →
    ∃ kept, findTable? after name = some kept ∧ kept.temporary = table.temporary
  former : ∀ table ∈ after, ∃ former ∈ before, former.name = table.name ∧
    former.temporary = table.temporary

theorem SameMarks.refl (tables : List Table) : SameMarks tables tables :=
  ⟨fun _ table h => ⟨table, h, rfl⟩, fun table h => ⟨table, h, rfl, rfl⟩⟩

theorem SameMarks.trans (h : SameMarks before middle) (h' : SameMarks middle after) :
    SameMarks before after := by
  constructor
  · intro name table htable
    obtain ⟨first, hfirst, hmark⟩ := h.kept name table htable
    obtain ⟨second, hsecond, hmark'⟩ := h'.kept name first hfirst
    exact ⟨second, hsecond, hmark'.trans hmark⟩
  · intro table htable
    obtain ⟨second, hsecond, hname, hmark⟩ := h'.former table htable
    obtain ⟨first, hfirst, hname', hmark'⟩ := h.former second hsecond
    exact ⟨first, hfirst, hname'.trans hname, hmark'.trans hmark⟩

/-- A snapshot in place of one of the same mark. -/
theorem sameMarks_putTable {former : Table} (hformer : findTable? tables table.name = some former)
    (hmark : former.temporary = table.temporary) : SameMarks tables (putTable tables table) := by
  constructor
  · intro name found hfound
    by_cases hname : table.name = name
    · rw [← hname] at hfound
      cases hformer.symm.trans hfound
      exact ⟨table, by rw [findTable?_putTable, if_pos hname], hmark.symm⟩
    · exact ⟨found, (findTable?_putTable_of_ne hname).trans hfound, rfl⟩
  · intro found hfound
    obtain rfl | hfound := mem_putTable hfound
    · exact ⟨former, mem_of_findTable? hformer, name_of_findTable? hformer, hmark⟩
    · exact ⟨found, hfound, rfl, rfl⟩

/-! ### What a change makes of the marks -/

namespace Database

theorem sameMarks_refreshTable {dropped : Option Constraint} {former : Table}
    (hformer : database.table? name = some former)
    (hrun : outcome (refreshTable engine name dropped) database = (.ok (), last)) :
    SameMarks database.tables last.tables := by
  obtain ⟨table, hdescribed, htables⟩ := exists_described_of_refreshTable hrun
  have hname : (renewed (database.table? name) dropped table).name = name := by
    rw [name_renewed, hdescribed.name]
  have hfound : findTable? database.tables (renewed (database.table? name) dropped table).name =
      some former := by
    rw [hname]
    exact hformer
  rw [htables]
  refine sameMarks_putTable hfound ?_
  rw [hformer]
  rfl

theorem sameMarks_linkForeignKey {columnName foreignTable foreignColumn : String}
    {asked : Option String} (hne : name ≠ foreignTable)
    (hrun : outcome (linkForeignKey name columnName foreignTable foreignColumn asked) database =
      (.ok (), last)) : SameMarks database.tables last.tables := by
  obtain ⟨e, hfails⟩ | ⟨target, foreign, ht, hf, _, _, -, -, linked, -, hlinked⟩ :=
    outcome_linkForeignKey database name columnName foreignTable foreignColumn asked
  · cases hfails.symm.trans hrun
  · cases hlinked.symm.trans hrun
    obtain rfl := name_of_findTable? ht
    obtain rfl := name_of_findTable? hf
    have hfirst : SameMarks database.tables
        (putTable database.tables (target.updateColumn columnName fun _ => linked.2.1)) :=
      sameMarks_putTable ht rfl
    have hfound : findTable? (putTable database.tables
        (target.updateColumn columnName fun _ => linked.2.1)) foreign.name = some foreign := by
      rw [findTable?_putTable]
      exact (if_neg hne).trans hf
    exact hfirst.trans (sameMarks_putTable hfound rfl)

theorem sameMarks_link {column foreign : ColumnRef} {asked : Option String} {known other : Table}
    {target : Column} {foreignTable foreignColumn : String}
    (hknown : database.table? name = some known) (hresolve : known.resolve column = .ok target)
    (hsplit : foreign.splitQualified = .ok (foreignTable, foreignColumn))
    (hne : name ≠ foreignTable)
    (hother : database.table? foreignTable = some other)
    (hrun : outcome ((RegistryChange.link column foreign asked).apply engine name) database =
      (.ok (), last)) :
    SameMarks database.tables last.tables := by
  rw [RegistryChange.apply, outcome_applyForeignKey hknown hresolve hsplit] at hrun
  obtain ⟨_, first, hfirst, hrun⟩ := exists_outcome_of_bind hrun
  obtain ⟨_, second, hsecond, hlink⟩ := exists_outcome_of_bind hrun
  have hkept := sameMarks_refreshTable hknown hfirst
  obtain ⟨there, hthere, -⟩ := hkept.kept foreignTable other hother
  exact (hkept.trans (sameMarks_refreshTable hthere hsecond)).trans
    (sameMarks_linkForeignKey hne hlink)

theorem sameMarks_unlink {dropped : Constraint} {known : Table}
    (hknown : database.table? name = some known)
    (hrun : outcome ((RegistryChange.unlink dropped).apply engine name) database = (.ok (), last)) :
    SameMarks database.tables last.tables := by
  obtain ⟨middle, hfirst, ⟨rfl, -⟩ | ⟨_, foreignTable, -, -, -, hsome, hsecond⟩⟩ :=
    applyDrop_cases hrun
  · exact sameMarks_refreshTable hknown hfirst
  · obtain ⟨there, hthere⟩ := Option.isSome_iff_exists.mp hsome
    exact (sameMarks_refreshTable hknown hfirst).trans (sameMarks_refreshTable hthere hsecond)

end Database

/-! ### What a submission makes of the marks -/

/-- The statements that created the tables, by their names, after a request with a statement.  A
table that is renamed has been created by the same statement as before.  What is noted for a name
stays until a table comes under it. -/
def Request.created (request : Request) (text : String) (creations : String → Option String) :
    String → Option String :=
  match Method.ofText request.method with
  | .ok (.createTable _ _) => Function.update creations request.table.name (some text)
  | .ok .renameTable =>
    match request.fields with
    | .column new => Function.update creations new.label (creations request.table.name)
    | _ => creations
  | _ => creations

/-- The name that a request leaves to a table. -/
def Request.nameAfter (request : Request) (name : String) : String :=
  match Method.ofText request.method with
  | .ok .renameTable =>
    match request.fields with
    | .column new => if request.table.name = name then new.label else name
    | _ => name
  | _ => name

/-- Whether a request drops the table of a name. -/
def Request.dropsTable (request : Request) (name : String) : Prop :=
  request.table.name = name ∧ ∃ temporary, Method.ofText request.method = .ok (.dropTable temporary)

/-- What a successful request makes of the marks.  All stay, unless it drops a table, renames one,
or creates one. -/
inductive Remarks (request : Request) (text : String) (before after : List Table) : Prop
  | same (marks : SameMarks before after)
    (creates : ∀ creations, request.created text creations = creations)
    (renames : ∀ name, request.nameAfter name = name)
  | dropped {temporary} (drops : Method.ofText request.method = .ok (.dropTable temporary))
    (erased : after = before.eraseP fun table => table.name == request.table.name)
  | renamed {new former table} (renames : Method.ofText request.method = .ok .renameTable)
    (fields : request.fields = .column new)
    (known : findTable? before request.table.name = some former)
    (free : findTable? before new.label = none) (name : table.name = new.label)
    (mark : table.temporary = former.temporary)
    (put : after = putTable (before.eraseP fun table => table.name == request.table.name) table)
  | created {temporary guarded table}
    (creates : Method.ofText request.method = .ok (.createTable temporary guarded))
    (free : findTable? before request.table.name = none) (name : table.name = request.table.name)
    (mark : table.temporary = true ↔ ∃ rest, text = "create temporary table" ++ rest)
    (put : after = putTable before table)

namespace Database

variable {resolved : Resolved} {text : String}

theorem text_of_creation {temporary guarded : Bool}
    (hvalid : request.validate (database.catalog engine) = .ok resolved)
    (hmethod : resolved.method = .createTable temporary guarded)
    (htext : request.text (database.catalog engine) = .ok text) :
    (∃ rest, text = "create temporary table" ++ rest) ↔
      request.createsTemporary temporary = true := by
  obtain ⟨hr, hshape, hschema⟩ := Request.validate_eq_ok_iff.mp hvalid
  obtain ⟨statement, hstatement⟩ := Request.exists_statementOf hr hshape hschema
  cases (Request.text_of_resolve hr hstatement).symm.trans htext
  simp only [Request.statementOf, hmethod] at hstatement
  obtain ⟨texts, -, hmade⟩ := bind_eq_ok_iff.mp hstatement
  cases hmade
  exact text_createTable_iff

theorem known_of_validate (hvalid : request.validate (database.catalog engine) = .ok resolved)
    (hschema : resolved.method.changesSchema = true)
    (hcreates : ∀ temporary guarded, resolved.method ≠ .createTable temporary guarded) :
    ∃ known, database.table? request.table.name = some known := by
  have hneeds : resolved.method.needsTable = true ∧ resolved.method.readsRows = false := by
    cases hmethod : resolved.method with
    | createTable temporary guarded => exact absurd hmethod (hcreates temporary guarded)
    | select | distinct | count | insert | update | delete | showTables | describe | truncate =>
      rw [hmethod] at hschema
      cases hschema
    | _ => exact ⟨rfl, rfl⟩
  obtain ⟨known, hknown, -⟩ :=
    Request.table_of_resolve (Request.validate_eq_ok_iff.mp hvalid).1 hneeds.1 hneeds.2
  exact ⟨known, hknown⟩

/-- A request that neither creates nor renames a table leaves the names as they are. -/
theorem names_of_registryChange (text : String)
    (hspelled : Method.ofText request.method = .ok resolved.method)
    (hcreate : ∀ temporary, registryChange resolved.method request ≠ .create temporary)
    (hrename : ∀ new, registryChange resolved.method request ≠ .rename new) :
    (∀ creations, request.created text creations = creations) ∧
      ∀ name, request.nameAfter name = name := by
  have hrenamed : ∀ new, resolved.method = .renameTable → request.fields ≠ .column new := by
    intro new hmethod hfields
    have hchange : registryChange resolved.method request = .rename new.label := by
      simp only [registryChange, hmethod, hfields]
    exact hrename _ hchange
  constructor
  · intro creations
    unfold Request.created
    rw [hspelled]
    split
    · next temporary guarded hmethod =>
      have hchange : registryChange resolved.method request =
          .create (request.createsTemporary temporary) := by
        simp only [registryChange, Except.ok.inj hmethod]
      exact absurd hchange (hcreate _)
    · next hmethod =>
      split
      · next new hfields => exact absurd hfields (hrenamed new (Except.ok.inj hmethod))
      · rfl
    · rfl
  · intro name
    unfold Request.nameAfter
    rw [hspelled]
    split
    · next hmethod =>
      split
      · next new hfields => exact absurd hfields (hrenamed new (Except.ok.inj hmethod))
      · rfl
    · rfl

theorem sameMarks_change {state : ε}
    (hvalid : request.validate (database.catalog engine) = .ok resolved)
    (hschema : resolved.method.changesSchema = true)
    (hcreate : ∀ temporary, registryChange resolved.method request ≠ .create temporary)
    (hrename : ∀ new, registryChange resolved.method request ≠ .rename new)
    (hremove : registryChange resolved.method request ≠ .remove)
    (happly : outcome ((registryChange resolved.method request).apply engine request.table.name)
      (database.withEngine state) = (.ok (), last)) : SameMarks database.tables last.tables := by
  have hmethod : ∀ temporary guarded, resolved.method ≠ .createTable temporary guarded := by
    intro temporary guarded hmethod
    exact hcreate (request.createsTemporary temporary) (by simp only [registryChange, hmethod])
  obtain ⟨known, hknown⟩ := known_of_validate hvalid hschema hmethod
  have hknown' : (database.withEngine state).table? request.table.name = some known := hknown
  change SameMarks (database.withEngine state).tables last.tables
  cases hchange : registryChange resolved.method request with
  | remove => exact absurd hchange hremove
  | rename new => exact absurd hchange (hrename new)
  | create temporary => exact absurd hchange (hcreate temporary)
  | refresh =>
    rw [hchange] at happly
    exact sameMarks_refreshTable hknown' happly
  | link column foreign asked =>
    obtain ⟨hmethod, hfields, hforeign⟩ := eq_of_registryChange_link hchange
    obtain ⟨owner, target, howner, hresolve, foreignTable, foreignColumn, other, hsplit, hne,
      hother⟩ := Request.foreign_of_validate hvalid hmethod hfields hforeign
    have howner' : (database.withEngine state).table? request.table.name = some owner := howner
    have hother' : (database.withEngine state).table? foreignTable = some other := hother
    rw [hchange] at happly
    exact sameMarks_link howner' hresolve hsplit hne.symm hother' happly
  | unlink dropped =>
    rw [hchange] at happly
    exact sameMarks_unlink hknown' happly

theorem remarks_submit (hrun : outcome (submit engine request) database = (.ok output, last))
    (htext : request.text (database.catalog engine) = .ok text) :
    Remarks request text database.tables last.tables := by
  obtain ⟨resolved, hvalid, hcases⟩ := submit_ok_cases hrun
  have hspelled := spelled_of_validate hvalid
  obtain ⟨hkept, htables⟩ | ⟨hschema, state, happly⟩ := hcases
  · have hcreate : ∀ temporary, registryChange resolved.method request ≠ .create temporary := by
      intro temporary hchange
      obtain ⟨asked, guarded, hmethod, -⟩ := eq_of_registryChange_create hchange
      simp [hmethod, Method.changesSchema] at hkept
    have hrename : ∀ new, registryChange resolved.method request ≠ .rename new := by
      intro new hchange
      simp [(eq_of_registryChange_rename hchange).1, Method.changesSchema] at hkept
    obtain ⟨hcreated, hnames⟩ := names_of_registryChange text hspelled hcreate hrename
    rw [htables]
    exact .same (.refl _) hcreated hnames
  have hfree := free_of_validate hvalid
  cases hchange : registryChange resolved.method request with
  | remove =>
    obtain ⟨temporary, hmethod⟩ := eq_of_registryChange_remove hchange
    rw [hchange] at happly
    cases happly
    exact .dropped (hmethod ▸ hspelled) rfl
  | rename new =>
    obtain ⟨hmethod, column, hfields, rfl⟩ := eq_of_registryChange_rename hchange
    obtain ⟨known, hknown⟩ := known_of_validate hvalid hschema (by simp [hmethod])
    rw [hchange] at happly
    obtain ⟨former, middle, hremove, hload⟩ := exists_outcome_of_bind happly
    cases hremove
    rw [table?_withEngine, hknown] at hload
    obtain ⟨table, hdescribed, htables⟩ := exists_described_of_loadTable hload
    have hname : ({ table with temporary := known.temporary } : Table).name = column.label :=
      hdescribed.name
    exact .renamed (hmethod ▸ hspelled) hfields hknown (hfree.1 _ hchange) hname rfl htables
  | create temporary =>
    obtain ⟨asked, guarded, hmethod, rfl⟩ := eq_of_registryChange_create hchange
    rw [hchange] at happly
    obtain ⟨table, hdescribed, htables⟩ := exists_described_of_loadTable happly
    have hname : ({ table with temporary := request.createsTemporary asked } : Table).name =
        request.table.name := hdescribed.name
    exact .created (hmethod ▸ hspelled) (hfree.2 _ hchange) hname
      (text_of_creation hvalid hmethod htext).symm htables
  | refresh | link | unlink =>
    obtain ⟨hcreated, hnames⟩ := names_of_registryChange text hspelled (by simp [hchange])
      (by simp [hchange])
    exact .same (sameMarks_change hvalid hschema (by simp [hchange]) (by simp [hchange])
      (by simp [hchange]) happly) hcreated hnames

end Database

/-- Whether a table was created by a statement for a temporary table. -/
def SaysTemporary (creation : Option String) : Prop :=
  ∃ text, creation = some text ∧ ∃ rest, text = "create temporary table" ++ rest

/-- Whether the marked tables are those that were created as temporary ones. -/
def Marked (tables : List Table) (creations : String → Option String) : Prop :=
  ∀ table ∈ tables, table.temporary = true ↔ SaysTemporary (creations table.name)

variable {text : String} {creations : String → Option String}

theorem ne_of_free (hfree : findTable? tables name = none) (ht : table ∈ tables) :
    table.name ≠ name := by
  rintro rfl
  exact findTable?_eq_none_iff.mp hfree (List.mem_map_of_mem ht)

theorem Remarks.marked (h : Remarks request text before after) (hmarked : Marked before creations) :
    Marked after (request.created text creations) := by
  cases h with
  | same marks creates renames =>
    intro table htable
    obtain ⟨former, hformer, hname, hmark⟩ := marks.former table htable
    rw [creates, ← hmark, ← hname]
    exact hmarked former hformer
  | dropped drops erased =>
    have hcreated : request.created text creations = creations := by
      unfold Request.created
      rw [drops]
    rw [hcreated, erased]
    exact fun table htable => hmarked table (List.eraseP_sublist.subset htable)
  | @renamed new former table renames fields known free name mark put =>
    have hcreated : request.created text creations =
        Function.update creations new.label (creations request.table.name) := by
      unfold Request.created
      rw [renames, fields]
    rw [hcreated, put]
    intro found hfound
    obtain rfl | hfound := mem_putTable hfound
    · rw [name, Function.update_self, mark, ← name_of_findTable? known]
      exact hmarked former (mem_of_findTable? known)
    · have hbefore : found ∈ before := List.eraseP_sublist.subset hfound
      rw [Function.update_of_ne (ne_of_free free hbefore)]
      exact hmarked found hbefore
  | @created _ _ table creates free name mark put =>
    have hcreated : request.created text creations =
        Function.update creations request.table.name (some text) := by
      unfold Request.created
      rw [creates]
    rw [hcreated, put]
    intro found hfound
    obtain rfl | hfound := mem_putTable hfound
    · rw [name, Function.update_self, mark]
      exact ⟨fun hrest => ⟨text, rfl, hrest⟩, fun ⟨_, heq, hrest⟩ => Option.some.inj heq ▸ hrest⟩
    · rw [Function.update_of_ne (ne_of_free free hfound)]
      exact hmarked found hfound

/-- A table that is not dropped is found again, with the same mark. -/
theorem Remarks.kept (h : Remarks request text before after)
    (hfound : findTable? before name = some table) (hdrops : ¬request.dropsTable name) :
    ∃ kept, findTable? after (request.nameAfter name) = some kept ∧
      kept.temporary = table.temporary := by
  cases h with
  | same marks creates renames =>
    rw [renames]
    exact marks.kept name table hfound
  | dropped drops erased =>
    have hname : request.nameAfter name = name := by
      unfold Request.nameAfter
      rw [drops]
    have hne : request.table.name ≠ name := fun heq => hdrops ⟨heq, _, drops⟩
    rw [hname, erased, findTable?_eraseP_of_ne hne]
    exact ⟨table, hfound, rfl⟩
  | @renamed new former found renames fields known free foundName mark put =>
    have hname : request.nameAfter name =
        if request.table.name = name then new.label else name := by
      unfold Request.nameAfter
      rw [renames, fields]
    rw [hname, put]
    by_cases heq : request.table.name = name
    · rw [heq] at known
      cases known.symm.trans hfound
      rw [if_pos heq, findTable?_putTable, if_pos foundName]
      exact ⟨found, rfl, mark⟩
    · have hne : found.name ≠ name := by
        rintro rfl
        rw [foundName, free] at hfound
        cases hfound
      rw [if_neg heq, findTable?_putTable_of_ne hne, findTable?_eraseP_of_ne heq]
      exact ⟨table, hfound, rfl⟩
  | @created _ _ found creates free foundName mark put =>
    have hname : request.nameAfter name = name := by
      unfold Request.nameAfter
      rw [creates]
    have hne : found.name ≠ name := by
      rintro rfl
      rw [foundName, free] at hfound
      cases hfound
    rw [hname, put, findTable?_putTable_of_ne hne]
    exact ⟨table, hfound, rfl⟩

/-! ### Runs from a connection -/

namespace Database

theorem notTemporary_of_ofDefinitions {definitions : List String}
    (h : Table.ofDefinitions name definitions = .ok table) : table.temporary = false := by
  obtain ⟨columns, -, -, rfl⟩ := Table.ofDefinitions_eq_ok_iff.mp h
  rfl

/-- A description says nothing of a table being temporary. -/
theorem keeps_notTemporary (engine : Engine ε) (name : String) :
    Keeps (fun _ => True) (fun table => table.temporary = false) (fun _ => True)
      (describeTable engine name) := by
  have hlasts : Lasts engine fun _ => True := ⟨fun _ _ _ _ _ => trivial, fun _ _ _ => trivial⟩
  refine (hlasts.runForNames .describe _).bind fun definitions _ => ?_
  exact keeps_lift (fun table h => notTemporary_of_ofDefinitions h) fun _ _ => trivial

theorem notTemporary_of_connect (hclosed : database.isOpen engine = false)
    (hrun : outcome (connect engine) database = (.ok (), last)) :
    ∀ table ∈ last.tables, table.temporary = false := by
  obtain ⟨names, start, -, hload⟩ := exists_outcome_of_bind (loaded_of_connect hclosed hrun)
  obtain ⟨tables, middle, hread, hset⟩ := exists_outcome_of_bind hload
  have hdescribes : Keeps (fun _ => True)
      (List.Forall₂ (fun _ table => table.temporary = false) names)
      (fun _ => True) (names.mapM (describeTable engine)) :=
    Keeps.mapM fun name _ => keeps_notTemporary engine name
  have hdescribed := (hdescribes start trivial).2
  rw [hread] at hdescribed
  cases hset
  intro table htable
  obtain ⟨i, hi, rfl⟩ := List.mem_iff_getElem.mp htable
  exact hdescribed.get (hdescribed.length_eq ▸ hi) hi

/-- Runs of successful submissions after a connection, with the statements that created tables since
then. -/
inductive Since (engine : Engine ε) : Database ε → (String → Option String) → Prop
  | connected {closed opened} (isClosed : closed.isOpen engine = false)
    (run : outcome (connect engine) closed = (.ok (), opened)) : Since engine opened fun _ => none
  | submitted {former next creations request output text} (since : Since engine former creations)
    (isText : request.text (former.catalog engine) = .ok text)
    (run : outcome (submit engine request) former = (.ok output, next)) :
    Since engine next (request.created text creations)

theorem marked_of_since (h : Since engine database creations) :
    Marked database.tables creations := by
  induction h with
  | connected isClosed run =>
    intro table htable
    have hmark := notTemporary_of_connect isClosed run table htable
    simp [hmark, SaysTemporary]
  | submitted since isText run ih => exact (remarks_submit run isText).marked ih

/-- After a connection the marked tables are those whose last creation since then was one of a
temporary table, and a submission keeps the marks of all tables that it does not drop. -/
theorem temporary_follows_creation (h : Since engine database creations) :
    (∀ table ∈ database.tables, table.temporary = true ↔
      ∃ text, creations table.name = some text ∧ ∃ rest, text = "create temporary table" ++ rest) ∧
    ∀ request output last, outcome (submit engine request) database = (.ok output, last) →
      ∀ name table, database.table? name = some table → ¬request.dropsTable name →
        ∃ kept, last.table? (request.nameAfter name) = some kept ∧
          kept.temporary = table.temporary := by
  refine ⟨marked_of_since h, fun request output last hrun name table hfound hdrops => ?_⟩
  obtain ⟨_, text, _, _, runs, -⟩ := exists_runs_of_submit hrun
  exact (remarks_submit hrun runs.isText).kept hfound hdrops

def cartRequest : Request :=
  { method := "create temporary table", table := .byName "carts",
    fields := .columns [.byName "id int"] }

def basketRequest : Request :=
  { method := "rename table", table := .byName "carts", fields := .column (.byName "baskets") }

/-- The shop with a temporary table. -/
def cartShop : Database Script := (outcome (submit Script.engine cartRequest) shop).2

/-- The shop after its temporary table has got another name. -/
def basketShop : Database Script := (outcome (submit Script.engine basketRequest) cartShop).2

/-- The new table of the shop is temporary under its second name too, as its creation says. -/
theorem temporary_follows_creation_basketShop :
    ∃ creations, Since Script.engine basketShop creations ∧
    creations "baskets" = some "create temporary table `carts` if not exists (id int);" ∧
    basketShop.tables.map (fun table => (table.name, table.temporary)) =
      [("users", false), ("orders", false), ("baskets", true)] ∧
    ∀ table ∈ basketShop.tables, table.temporary = true ↔
      ∃ text, creations table.name = some text ∧
        ∃ rest, text = "create temporary table" ++ rest := by
  have hshop : Since Script.engine shop fun _ => none :=
    .connected (by decide +kernel) outcome_connect_shop
  have hcart : outcome (submit Script.engine cartRequest) shop = (.ok .empty, cartShop) :=
    Prod.ext (by decide +kernel) rfl
  have hbasket : outcome (submit Script.engine basketRequest) cartShop = (.ok .empty, basketShop) :=
    Prod.ext (by decide +kernel) rfl
  have hcreation : cartRequest.text (shop.catalog Script.engine) =
      .ok "create temporary table `carts` if not exists (id int);" := by decide +kernel
  have hrenaming : basketRequest.text (cartShop.catalog Script.engine) =
      .ok "alter table `carts` rename `baskets`;" := by decide +kernel
  have hsince := (hshop.submitted hcreation hcart).submitted hrenaming hbasket
  exact ⟨_, hsince, by decide +kernel, by decide +kernel, (temporary_follows_creation hsince).1⟩

end Database

end SchemaQuery
