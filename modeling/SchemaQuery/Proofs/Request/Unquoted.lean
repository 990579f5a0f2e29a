import SchemaQuery.Join
import SchemaQuery.Proofs.Request.Safety

/-! Texts that statements write as they are.  The name of a constraint is not quoted, and neither
are the names of the tables that a join is made of.  A statement with such a text is still a single
one when the text closes its quotes and holds no semicolon outside them; for the name of a
constraint this is also necessary. -/

namespace SchemaQuery

namespace MySql

variable {a b text : String} {place other : Place} {chars : List Char}

/-! ### Sealed texts -/

/-- A text that leaves a scan outside quotes. -/
def IsClosed (text : String) : Prop := scan .outside text.toList = .outside

instance (text : String) : Decidable (IsClosed text) :=
  inferInstanceAs (Decidable (scan .outside text.toList = .outside))

theorem isClosed_append_iff (ha : IsClosed a) : IsClosed (a ++ b) ↔ IsClosed b := by
  rw [IsClosed, IsClosed, String.toList_append, scan_append, ha]

/-- A text that leaves a scan outside quotes and does not end the statement on the way. -/
structure IsSealed (text : String) : Prop where
  closed : IsClosed text
  noEnd : ';' ∉ outsideText .outside text.toList

theorem isSealed_iff : IsSealed text ↔ IsClosed text ∧ ';' ∉ outsideText .outside text.toList :=
  ⟨fun h => ⟨h.closed, h.noEnd⟩, fun h => ⟨h.1, h.2⟩⟩

instance (text : String) : Decidable (IsSealed text) := decidable_of_iff _ isSealed_iff.symm

/-- A text that is one statement: it closes its quotes, and outside them there is one semicolon, at
the end. -/
structure IsSingle (text : String) : Prop where
  closed : IsClosed text
  oneEnd : (outsideText .outside text.toList).count ';' = 1
  isEnd : text.toList.getLast? = some ';'

theorem IsClean.isSealed (h : IsClean text) : IsSealed text :=
  ⟨h.closed, fun hend => by cases h.allowed ';' hend⟩

theorem isSealed_append_iff (ha : IsClosed a) : IsSealed (a ++ b) ↔ IsSealed a ∧ IsSealed b := by
  rw [isSealed_iff, isSealed_iff, isSealed_iff, isClosed_append_iff ha, String.toList_append,
    outsideText_append, ha, List.mem_append, not_or]
  tauto

theorem IsSealed.append_iff (ha : IsSealed a) : IsSealed (a ++ b) ↔ IsSealed b := by
  rw [isSealed_append_iff ha.closed]
  exact and_iff_right ha

theorem IsSealed.append (ha : IsSealed a) (hb : IsSealed b) : IsSealed (a ++ b) :=
  ha.append_iff.mpr hb

/-- A semicolon that leaves a scan outside quotes is met there. -/
theorem isSingle_append_iff : IsSingle (text ++ ";") ↔ IsSealed text := by
  have hscan : scan .outside (text ++ ";").toList = (scan .outside text.toList).next ';' := by
    rw [String.toList_append, scan_append]
    rfl
  have hnext : ∀ place : Place, place.next ';' = .outside → place = .outside := by
    intro place
    cases place <;> decide
  have houtside : IsClosed text →
      outsideText .outside (text ++ ";").toList = outsideText .outside text.toList ++ [';'] := by
    intro hclosed
    rw [String.toList_append, outsideText_append, hclosed]
    rfl
  constructor
  · intro h
    have hclosed : IsClosed text := hnext _ (hscan.symm.trans h.closed)
    have hcount := h.oneEnd
    rw [houtside hclosed, List.count_append, List.count_singleton_self] at hcount
    exact ⟨hclosed, List.count_eq_zero.mp (by omega)⟩
  · intro h
    refine ⟨?_, ?_, ?_⟩
    · exact (isClosed_append_iff h.closed).mpr rfl
    · rw [houtside h.closed, List.count_append, List.count_eq_zero.mpr h.noEnd]
      rfl
    · rw [String.toList_append]
      exact List.getLast?_concat

/-! ### What can follow an open quote -/

/-- Whether a scan opens no text in single quotes. -/
def OpensNoText (place : Place) (chars : List Char) : Prop := '\'' ∉ outsideText place chars

/-- Two scans of names and words that start at different places never meet.  The one of them is at
no time in a text between single quotes; so a backtick or a single quote that takes the other one
out of its quotes takes it to where the first one is not. -/
theorem scan_ne_scan (hplace : place = .outside ∨ place = .identifier) (hne : place ≠ other)
    (h : OpensNoText place chars) : scan place chars ≠ scan other chars := by
  induction chars generalizing place other with
  | nil => exact hne
  | cons c rest ih =>
    have hstep : (place.next c = .outside ∨ place.next c = .identifier) ∧
        place.next c ≠ other.next c ∧ OpensNoText (place.next c) rest := by
      obtain rfl | rfl := hplace
      · have hc : c ≠ '\'' ∧ OpensNoText (Place.next .outside c) rest := by
          simpa [OpensNoText, outsideText, eq_comm] using h
        refine ⟨?_, ?_, hc.2⟩
        · by_cases hmark : c = '\x60' <;> simp [Place.next, hmark, hc.1]
        · by_cases hmark : c = '\x60' <;> by_cases hslash : c = '\\' <;> cases other <;>
            simp_all [Place.next]
      · refine ⟨?_, ?_, h⟩
        · by_cases hmark : c = '\x60' <;> simp [Place.next, hmark]
        · by_cases hmark : c = '\x60' <;> by_cases hslash : c = '\\' <;>
            by_cases htext : c = '\'' <;> cases other <;> simp_all [Place.next]
    exact ih hstep.1 hstep.2.1 hstep.2.2

/-- A clean piece that opens no text between single quotes. -/
structure IsNaming (text : String) : Prop where
  clean : IsClean text
  noText : OpensNoText .outside text.toList

theorem isNaming_iff : IsNaming text ↔ IsClean text ∧ '\'' ∉ outsideText .outside text.toList :=
  ⟨fun h => ⟨h.clean, h.noText⟩, fun h => ⟨h.1, h.2⟩⟩

instance (text : String) : Decidable (IsNaming text) := decidable_of_iff _ isNaming_iff.symm

theorem IsNaming.append (ha : IsNaming a) (hb : IsNaming b) : IsNaming (a ++ b) := by
  refine ⟨ha.clean.append hb.clean, ?_⟩
  rw [OpensNoText, String.toList_append, outsideText_append, ha.clean.closed,
    List.mem_append, not_or]
  exact ⟨ha.noText, hb.noText⟩

/-- What is written after a text cannot seal it. -/
theorem IsNaming.append_iff (hb : IsNaming b) : IsSealed (a ++ b) ↔ IsSealed a := by
  constructor
  · intro h
    have hclosed : scan (scan .outside a.toList) b.toList = .outside := by
      rw [← scan_append, ← String.toList_append]
      exact h.closed
    have ha : IsClosed a := by
      by_contra hne
      refine scan_ne_scan (.inl rfl) (Ne.symm hne) hb.noText ?_
      rw [hb.clean.closed, hclosed]
    exact ((isSealed_append_iff ha).mp h).1
  · exact fun h => h.append hb.clean.isSealed

theorem outsideText_subset : outsideText place chars ⊆ chars := by
  induction chars generalizing place with
  | nil => exact List.Subset.refl []
  | cons c rest ih =>
    cases place with
    | outside => exact List.cons_subset_cons c ih
    | _ => exact List.subset_cons_of_subset c ih

/-- Of a quoted name, a scan meets nothing but backticks outside quotes. -/
theorem eq_of_mem_outsideText {c : Char} {name : List Char}
    (h : c ∈ outsideText .identifier (doubledMarks name ++ ['\x60'])) : c = '\x60' := by
  induction name with
  | nil => simp [doubledMarks, outsideText] at h
  | cons d rest ih =>
    rw [doubledMarks, List.flatMap_cons, List.append_assoc] at h
    by_cases hd : d = '\x60'
    · subst hd
      obtain rfl | hrest : c = '\x60' ∨
          c ∈ outsideText .identifier (doubledMarks rest ++ ['\x60']) := by
        simpa [outsideText, Place.next, doubledMarks] using h
      · rfl
      · exact ih hrest
    · refine ih ?_
      simpa [outsideText, Place.next, hd, doubledMarks] using h

theorem isNaming_quoteIdentifier (name : String) : IsNaming (quoteIdentifier name) := by
  refine ⟨isClean_quoteIdentifier name, fun h => ?_⟩
  rw [toList_quoteIdentifier, List.cons_append, outsideText, List.mem_cons] at h
  obtain h | h := h
  · cases h
  · cases eq_of_mem_outsideText h

theorem isNaming_columnIdentifier (name : String) : IsNaming (columnIdentifier name) := by
  cases hbare : isBare name with
  | false =>
    rw [columnIdentifier, hbare]
    exact isNaming_quoteIdentifier name
  | true =>
    have hclean : IsClean (columnIdentifier name) := isClean_columnIdentifier name
    rw [columnIdentifier, if_pos hbare] at hclean ⊢
    simp only [isBare, Bool.and_eq_true, List.all_eq_true] at hbare
    refine ⟨hclean, fun h => ?_⟩
    cases hbare.1.2 '\'' (outsideText_subset h)

end MySql

/-! ### Statements -/

open MySql

/-- The text of a target that is written without quotes: a join. -/
def Target.unquoted? : Target → Option String
  | .table _ => none
  | .join text => some text

/-- The name of a constraint that a statement writes, which it never quotes. -/
def Statement.constraintName? : Statement → Option String
  | .addConstraint _ constraint => constraint.name
  | .dropConstraint _ (.primary _) => none
  | .dropConstraint _ constraint => some constraint.name
  | _ => none

theorem isSealed_target {target : Target} (h : ∀ text ∈ target.unquoted?, IsSealed text) :
    IsSealed target.text := by
  cases target with
  | table name => exact (isClean_quoteIdentifier name).isSealed
  | join text => exact h text rfl

theorem isNaming_referencesText (references : Option (String × String)) :
    IsNaming (referencesText references) := by
  cases references with
  | none => exact (by decide : IsNaming "")
  | some reference =>
    have htable : IsNaming (" references " ++ quoteIdentifier reference.1 ++ " (") :=
      ((by decide : IsNaming " references ").append (isNaming_quoteIdentifier _)).append (by decide)
    exact (htable.append (isNaming_columnIdentifier _)).append (by decide)

variable {name lead tail : String} {c : NewConstraint}

theorem isSealed_between_iff (hl : IsClean lead) (ht : IsNaming tail) :
    IsSealed (lead ++ name ++ tail) ↔ IsSealed name :=
  ht.append_iff.trans hl.isSealed.append_iff

theorem isNaming_clause (hcolumn : IsNaming c.column) (hname : c.name = none) :
    IsNaming c.clause := by
  have hends : ∀ word, IsNaming word → IsNaming (word ++ c.column ++ ")") :=
    fun word hw => (hw.append hcolumn).append (by decide)
  unfold NewConstraint.clause
  rw [hname]
  cases c.kind with
  | index => exact hends _ (by decide)
  | unique => exact hends _ (by decide)
  | primary => exact hends _ (by decide)
  | foreign => exact (hends _ (by decide)).append (isNaming_referencesText c.references)

/-- The name of a new constraint stands between words, and its column after them. -/
theorem exists_clause_eq (hcolumn : IsNaming c.column) (hname : c.name = some name) :
    ∃ lead tail, IsClean lead ∧ IsNaming tail ∧ c.clause = lead ++ name ++ tail := by
  have hends : ∀ word, IsNaming word → IsNaming (word ++ c.column ++ ")") :=
    fun word hw => (hw.append hcolumn).append (by decide)
  have hadd : "add " ++ constraintName (some name) = "add constraint " ++ name ++ " " := by
    rw [constraintName, ← String.append_assoc, ← String.append_assoc]
    rfl
  unfold NewConstraint.clause
  rw [hname]
  cases c.kind with
  | index =>
    exact ⟨"add index ", _, by decide, hends " (" (by decide), by simp [String.append_assoc]⟩
  | unique =>
    exact ⟨"add constraint ", _, by decide, hends " unique (" (by decide),
      by simp [hadd, String.append_assoc]⟩
  | primary =>
    exact ⟨"add constraint ", _, by decide, hends " primary key (" (by decide),
      by simp [hadd, String.append_assoc]⟩
  | foreign =>
    refine ⟨"add constraint ", _, by decide,
      (hends " foreign key (" (by decide)).append (isNaming_referencesText c.references), ?_⟩
    simp [hadd, String.append_assoc]

theorem isSealed_clause_iff (hcolumn : IsNaming c.column) :
    IsSealed c.clause ↔ ∀ name ∈ c.name, IsSealed name := by
  cases hname : c.name with
  | none => simp [(isNaming_clause hcolumn hname).clean.isSealed]
  | some name =>
    obtain ⟨lead, tail, hl, ht, heq⟩ := exists_clause_eq hcolumn hname
    rw [heq, isSealed_between_iff hl ht]
    simp

theorem isSealed_dropClause_iff {target : Target} (dropped : Constraint) :
    IsSealed (dropClause dropped) ↔
    ∀ name ∈ (Statement.dropConstraint target dropped).constraintName?, IsSealed name := by
  have hindex : ∀ name, IsSealed ("drop index " ++ name) ↔ IsSealed name :=
    fun name => (by decide : IsSealed "drop index ").append_iff
  have hforeign : ∀ name, IsSealed ("drop foreign key " ++ name) ↔ IsSealed name :=
    fun name => (by decide : IsSealed "drop foreign key ").append_iff
  have hprimary : IsSealed "drop primary key" := by decide
  have hone : ∀ name, (∀ n ∈ some name, IsSealed n) ↔ IsSealed name := by simp
  cases dropped with
  | index i => exact (hindex i.name).trans (hone i.name).symm
  | unique u => exact (hindex u.name).trans (hone u.name).symm
  | primary u => exact iff_of_true hprimary nofun
  | foreign f => exact (hforeign f.name).trans (hone f.name).symm

/-! ### Requests for constraints -/

namespace Request

variable {catalog : Catalog} {request : Request} {resolved : Resolved} {statement : Statement}

theorem isNaming_of_newConstraint {table : Table} {kind : ConstraintKind} {reference : ColumnRef}
    {modifiers : Modifiers} (h : newConstraint table kind reference modifiers = .ok c) :
    IsNaming c.column := by
  rw [newConstraint] at h
  obtain ⟨column, -, h⟩ := bind_eq_ok_iff.mp h
  have hmade : ∃ references name, c =
      { kind, name, column := columnIdentifier column.name, references } := by
    dsimp only at h
    split at h
    · obtain ⟨references, -, h⟩ := bind_eq_ok_iff.mp h
      exact ⟨_, _, (Except.ok.inj h).symm⟩
    · cases h
    · exact ⟨_, _, (Except.ok.inj h).symm⟩
  obtain ⟨references, name, rfl⟩ := hmade
  exact isNaming_columnIdentifier column.name

/-- Adding and dropping a constraint say after the table what becomes of it. -/
theorem isSealed_constraint_iff (h : statementOf resolved request = .ok statement)
    (hm : (∃ kind, resolved.method = .addConstraint kind) ∨ resolved.method = .dropConstraint)
    (htarget : IsSealed request.table.target.text) :
    IsSealed statement.body ↔ ∀ name ∈ statement.constraintName?, IsSealed name := by
  have hopening : IsSealed ("alter table " ++ request.table.target.text ++ " ") :=
    ((by decide : IsSealed "alter table ").append htarget).append (by decide)
  obtain ⟨kind, hm⟩ | hm := hm
  · simp only [statementOf, hm] at h
    obtain ⟨table, -, h⟩ := bind_eq_ok_iff.mp h
    split at h
    · obtain ⟨constraint, hc, h⟩ := bind_eq_ok_iff.mp h
      cases h
      exact hopening.append_iff.trans (isSealed_clause_iff (isNaming_of_newConstraint hc))
    · cases h
  · simp only [statementOf, hm] at h
    split at h
    · cases h
      exact hopening.append_iff.trans (isSealed_dropClause_iff _)
    · cases h

/-! ### Joins -/

variable {left right joined : Table} {on : Expr} {direction : JoinDirection}
  {asName : Option String}

theorem isClean_joinTail (on : Expr) (asName : Option String) :
    IsClean (optionalClause " as " (asName.map quoteIdentifier) ++ " on " ++ on.text) := by
  have halias : ∀ t ∈ asName.map quoteIdentifier, IsClean t := by
    intro t ht
    obtain ⟨name, -, rfl⟩ := Option.map_eq_some_iff.mp ht
    exact isClean_quoteIdentifier name
  exact ((isClean_optionalClause (by decide) halias).append (by decide)).append (isClean_expr on)

theorem name_of_join (h : Table.join left right on direction asName = .ok joined) :
    joined.joined = true ∧ joined.name = Table.joinText left right on direction asName := by
  rw [Table.join] at h
  split at h
  · obtain ⟨made, hmade, rfl⟩ := map_eq_ok_iff.mp h
    rw [Table.make] at hmade
    split at hmade
    · cases hmade
    · cases hmade
      exact ⟨rfl, rfl⟩
  · cases h

theorem isClean_joinWords (direction : JoinDirection) :
    IsClean (" " ++ direction.keyword ++ " join ") := by
  cases direction <;> decide

theorem joinText_eq : Table.joinText left right on direction asName =
    left.name ++ (" " ++ direction.keyword ++ " join " ++
      (right.name ++ (optionalClause " as " (asName.map quoteIdentifier) ++ " on " ++
        on.text))) := by
  simp only [Table.joinText, String.append_assoc]

/-- The text of a join is sealed when the names of both tables are; where each of them closes its
quotes, only then. -/
theorem isSealed_joinText_iff (hl : IsClosed left.name) (hr : IsClosed right.name) :
    IsSealed (Table.joinText left right on direction asName) ↔
      IsSealed left.name ∧ IsSealed right.name := by
  rw [joinText_eq, isSealed_append_iff hl, (isClean_joinWords direction).isSealed.append_iff,
    isSealed_append_iff hr]
  exact and_congr_right fun _ => and_iff_left (isClean_joinTail on asName).isSealed

theorem isClosed_joinText (hl : IsClosed left.name) (hr : IsClosed right.name) :
    IsClosed (Table.joinText left right on direction asName) := by
  rw [joinText_eq, isClosed_append_iff hl, isClosed_append_iff (isClean_joinWords direction).closed,
    isClosed_append_iff hr]
  exact (isClean_joinTail on asName).closed

/-- Reading rows writes the target between words, columns and expressions. -/
theorem isSealed_reading_iff (h : statementOf resolved request = .ok statement)
    (hm : resolved.method.readsRows = true)
    (htarget : IsClosed request.table.target.text) :
    IsSealed statement.body ↔ IsSealed request.table.target.text := by
  have hselect : ∀ distinct projection clauses,
      IsSealed (Statement.select distinct projection request.table.target clauses).body ↔
        IsSealed request.table.target.text := by
    intro distinct projection clauses
    have hword : IsClean (if distinct then "distinct " else "") := by cases distinct <;> decide
    have hopening : IsClean ("select " ++ (if distinct then "distinct " else "") ++
        projection.text ++ " from ") :=
      (((by decide : IsClean "select ").append hword).append (isClean_projection projection)).append
        (by decide)
    have htext : IsClosed ("select " ++ (if distinct then "distinct " else "") ++ projection.text ++
        " from " ++ request.table.target.text) := (isClosed_append_iff hopening.closed).mpr htarget
    refine (isSealed_append_iff htext).trans ?_
    rw [hopening.isSealed.append_iff]
    exact and_iff_left (isClean_clauses clauses).isSealed
  cases hmethod : resolved.method with
  | select | distinct | count =>
    simp only [statementOf, hmethod] at h
    obtain ⟨table, -, h⟩ := bind_eq_ok_iff.mp h
    obtain ⟨projection, -, h⟩ := bind_eq_ok_iff.mp h
    obtain ⟨clauses, -, h⟩ := bind_eq_ok_iff.mp h
    cases h
    exact hselect _ projection clauses
  | _ =>
    rw [hmethod] at hm
    cases hm

/-! ### Texts that are single statements -/

theorem exists_single_iff (h : request.validate catalog = .ok resolved) :
    ∃ statement, statementOf resolved request = .ok statement ∧
      request.text catalog = .ok statement.text ∧
      (IsSingle statement.text ↔ IsSealed statement.body) := by
  obtain ⟨hr, hshape, hschema⟩ := validate_eq_ok_iff.mp h
  obtain ⟨statement, hs⟩ := exists_statementOf hr hshape hschema
  exact ⟨statement, hs, text_of_resolve hr hs, isSingle_append_iff⟩

/-- A valid request to add or drop a constraint is written as a single statement exactly when the
name that it writes is sealed, and a valid request to read a join exactly when the names of both
tables are; the target of the one, and the quotes in the names of the other, are taken to be
closed. -/
theorem isSingle_text (catalog : Catalog) (request : Request) (resolved : Resolved)
    (h : request.validate catalog = .ok resolved) :
    ((∃ kind, resolved.method = .addConstraint kind) ∨ resolved.method = .dropConstraint →
      (∀ join ∈ request.table.target.unquoted?, IsSealed join) →
      ∃ statement, statementOf resolved request = .ok statement ∧
        request.text catalog = .ok statement.text ∧
        (IsSingle statement.text ↔ ∀ name ∈ statement.constraintName?, IsSealed name)) ∧
    ∀ (left right joined : Table) (on : Expr) (direction : JoinDirection) (asName : Option String),
      Table.join left right on direction asName = .ok joined → request.table = .byValue joined →
      resolved.method.readsRows = true → IsClosed left.name → IsClosed right.name →
      ∃ text, request.text catalog = .ok text ∧
        (IsSingle text ↔ IsSealed left.name ∧ IsSealed right.name) := by
  obtain ⟨statement, hs, htext, hsingle⟩ := exists_single_iff h
  constructor
  · intro hm htarget
    exact ⟨statement, hs, htext, hsingle.trans
      (isSealed_constraint_iff hs hm (isSealed_target htarget))⟩
  · intro left right joined on direction asName hjoin hreference hm hl hr
    obtain ⟨hjoined, hname⟩ := name_of_join hjoin
    have htarget : request.table.target.text = Table.joinText left right on direction asName := by
      rw [hreference, TableRef.target, if_pos hjoined, Target.text, hname]
    have hclosed : IsClosed request.table.target.text := by
      rw [htarget]
      exact isClosed_joinText hl hr
    refine ⟨statement.text, htext, ?_⟩
    rw [hsingle, isSealed_reading_iff hs hm hclosed, htarget, isSealed_joinText_iff hl hr]

/-- A name and a join with marks and semicolons in closed quotes. -/
theorem isSingle_text_quoted :
    let users : Table :=
      { name := "\x60us;ers\x60",
        columns := [{ name := "id", owner := some "\x60us;ers\x60", type := "int" }] }
    let orders : Table :=
      { name := "orders",
        columns := [{ name := "user_id", owner := some "orders", type := "int" }] }
    let catalog : Catalog := ⟨true, [users, orders]⟩
    let added : Request :=
      { method := "add unique", table := .byName "orders", fields := .column (.byName "user_id")
        modifiers := { name := some "\x60one; each\x60" } }
    let on : Expr := .comparison .eq (.column ⟨some "orders", "user_id"⟩) (.value (.text "';"))
    let joinName :=
      "\x60us;ers\x60 left join orders as \x60o\x60\x60\x60 on (orders.user_id = '\\';')"
    let joined : Table :=
      { name := joinName, joined := true
        columns :=
          [{ name := "\x60us;ers\x60.id", owner := some joinName, type := "int" },
            { name := "o\x60.user_id", owner := some joinName, type := "int" }] }
    let read : Request := { method := "select", table := .byValue joined }
    (∃ statement, statementOf ⟨.addConstraint .unique, some orders⟩ added = .ok statement ∧
      added.text catalog = .ok statement.text ∧
      (IsSingle statement.text ↔ ∀ name ∈ statement.constraintName?, IsSealed name)) ∧
    Table.join users orders on .left (some "o\x60") = .ok joined ∧
      ∃ text, read.text catalog = .ok text ∧
      (IsSingle text ↔ IsSealed users.name ∧ IsSealed orders.name) := by
  intro users orders catalog added on joinName joined read
  have hjoin : Table.join users orders on .left (some "o\x60") = .ok joined := by decide +kernel
  have hadded : added.validate catalog = .ok ⟨.addConstraint .unique, some orders⟩ := by
    decide +kernel
  have hread : read.validate catalog = .ok ⟨.select, some joined⟩ := by decide +kernel
  refine ⟨(isSingle_text catalog added _ hadded).1 (.inl ⟨.unique, rfl⟩) nofun, hjoin, ?_⟩
  exact (isSingle_text catalog read _ hread).2 users orders joined on .left
    (some "o\x60") hjoin rfl rfl (by decide) (by decide)

/-- A semicolon in the name of a constraint, or in the name of a joined table, ends the statement
early. -/
theorem not_isSingle_text :
    let orders : Table :=
      { name := "orders",
        columns := [{ name := "user_id", owner := some "orders", type := "int" }] }
    let catalog : Catalog := ⟨true, [orders]⟩
    let added : Request :=
      { method := "add index", table := .byName "orders", fields := .column (.byName "user_id")
        modifiers := { name := some "i (user_id); drop table orders; -- " } }
    let marked : Table := { name := "t; drop table orders; -- ", columns := [] }
    let on : Expr := .comparison .eq (.value (.bool true)) (.value (.bool true))
    let joinName := "orders inner join t; drop table orders; --  on (1 = 1)"
    let joined : Table :=
      { name := joinName, joined := true
        columns := [{ name := "orders.user_id", owner := some joinName, type := "int" }] }
    let read : Request := { method := "select", table := .byValue joined }
    (added.validate catalog = .ok ⟨.addConstraint .index, some orders⟩ ∧
      ∃ text, added.text catalog = .ok text ∧ ¬IsSingle text) ∧
    Table.join orders marked on .inner none = .ok joined ∧
      read.validate catalog = .ok ⟨.select, some joined⟩ ∧
        ∃ text, read.text catalog = .ok text ∧ ¬IsSingle text := by
  intro orders catalog added marked on joinName joined read
  have hadded : added.text catalog =
      .ok
        "alter table \x60orders\x60 add index i (user_id); drop table orders; --  (user_id);" := by
    decide +kernel
  have hread : read.text catalog =
      .ok "select * from orders inner join t; drop table orders; --  on (1 = 1);" := by
    decide +kernel
  refine ⟨⟨by decide +kernel, _, hadded, fun h => ?_⟩, by decide +kernel, by decide +kernel, _,
    hread, fun h => ?_⟩
  · exact absurd h.oneEnd (by decide +kernel)
  · exact absurd h.oneEnd (by decide +kernel)

end Request

end SchemaQuery
