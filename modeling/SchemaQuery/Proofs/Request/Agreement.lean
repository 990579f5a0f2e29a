import Mathlib.Data.Option.Basic
import SchemaQuery.Proofs.Request.Validation
import SchemaQuery.Request.Statement

/-! Requests that agree.  Two requests may differ in modifiers that their method does not use, and
in how they refer to the columns of their table.  As long as the references they use are resolved
alike, the requests are checked and written alike. -/

namespace SchemaQuery

/-- Whether two references cannot be told apart by a request on the table, if it has one. -/
structure ColumnRef.Agree (table? : Option Table) (a b : ColumnRef) : Prop where
  resolve : ∀ table, table? = some table → table.resolve a = table.resolve b
  isAll : a.isAll = b.isAll
  isFirst : a.isFirst = b.isFirst

theorem ColumnRef.Agree.refl (table? : Option Table) (a : ColumnRef) : Agree table? a a :=
  ⟨fun _ _ => rfl, rfl, rfl⟩

/-- Whether the references among the fields are to columns that the table has.  Otherwise they
define new columns, or stand for the new name of the table. -/
def Method.refersToColumns : Method → Bool
  | .createTable _ _ | .renameTable | .addColumn => false
  | _ => true

/-- Fields that differ in their references to columns only. -/
inductive Fields.Agree (same : ColumnRef → ColumnRef → Prop) : Fields → Fields → Prop
  | nothing : Agree same .nothing .nothing
  | all : Agree same .all .all
  | column {a b : ColumnRef} (h : same a b) : Agree same (.column a) (.column b)
  | columns {as bs : List ColumnRef} (h : List.Forall₂ same as bs) :
    Agree same (.columns as) (.columns bs)
  | values {ps qs : List (ColumnRef × Value)}
    (h : List.Forall₂ (fun p q => same p.1 q.1 ∧ p.2 = q.2) ps qs) :
    Agree same (.values ps) (.values qs)
  | change {a b : ColumnRef} (h : same a b) (new : ColumnRef) :
    Agree same (.change a new) (.change b new)
  | constraint (c : Constraint) : Agree same (.constraint c) (.constraint c)

theorem Fields.Agree.refl {same : ColumnRef → ColumnRef → Prop} (h : ∀ a, same a a)
    (fields : Fields) : Agree same fields fields := by
  cases fields with
  | nothing => exact .nothing
  | all => exact .all
  | column a => exact .column (h a)
  | columns as => exact .columns (List.forall₂_same.mpr fun a _ => h a)
  | values ps => exact .values (List.forall₂_same.mpr fun p _ => ⟨h p.1, rfl⟩)
  | change a new => exact .change (h a) new
  | constraint c => exact .constraint c

/-- Modifiers that differ, as far as a method uses them on such fields, in their references to
columns only. -/
structure Modifiers.Agree (same : ColumnRef → ColumnRef → Prop) (method : Method) (fields : Fields)
    (m n : Modifiers) : Prop where
  predicate : method.takesWhere = true → m.predicate = n.predicate
  groupBy : method.takesGroupBy = true → Option.Rel same m.groupBy n.groupBy
  orderBy : method.takesOrderBy = true → Option.Rel same m.orderBy n.orderBy
  limit : method.takesLimit = true → m.limit = n.limit
  temporary : ((∃ temporary guarded, method = .createTable temporary guarded) ∨
    ∃ temporary, method = .dropTable temporary) → m.temporary = n.temporary
  clobber : (∃ temporary guarded, method = .createTable temporary guarded) → m.clobber = n.clobber
  after : method = .addColumn → Option.Rel same m.after n.after
  newDefinition : method = .alterColumn → (∃ column, fields = .column column) →
    m.newDefinition = n.newDefinition
  name : (∃ kind, method = .addConstraint kind) → m.name = n.name
  foreign : method = .addConstraint .foreign → m.foreign = n.foreign

namespace Request

/-- Requests on one table that differ in what their method does not use, and in how they refer to
the columns of the table. -/
structure Agree (resolved : Resolved) (a b : Request) : Prop where
  target : a.table.target = b.table.target
  creation : (∃ temporary guarded, resolved.method = .createTable temporary guarded) →
    a.table = b.table
  fields : Fields.Agree (ColumnRef.Agree resolved.table?) a.fields b.fields
  definitions : resolved.method.refersToColumns = false → a.fields = b.fields
  modifiers : Modifiers.Agree (ColumnRef.Agree resolved.table?) resolved.method a.fields a.modifiers
    b.modifiers

variable {catalog : Catalog} {resolved : Resolved} {table : Table} {a b : Request} {f g : Fields}
  {m n : Modifiers}

/-! ### The shape of requests that agree -/

theorem checkValues_eq {same : ColumnRef → ColumnRef → Prop} (method : Method)
    (h : Fields.Agree same f g) : checkValues method f = checkValues method g := by
  cases h with
  | values h => cases h <;> rfl
  | _ => rfl

theorem checkFields_eq (h : Agree resolved a b) :
    checkFields resolved.method a = checkFields resolved.method b := by
  obtain ⟨words, reference, fields, m⟩ := a
  obtain ⟨words', reference', fields', n⟩ := b
  obtain ⟨method, table?⟩ := resolved
  obtain ⟨-, hcreation, hfields, hdefinitions, hmodifiers⟩ := h
  dsimp only at hcreation hfields hdefinitions hmodifiers
  unfold checkFields
  dsimp only
  cases method with
  | insert | update => exact checkValues_eq _ hfields
  | renameTable | addColumn => rw [hdefinitions rfl]
  | createTable temporary guarded => rw [hdefinitions rfl, hcreation ⟨temporary, guarded, rfl⟩]
  | alterColumn =>
    have hnew := hmodifiers.newDefinition rfl
    cases hfields with
    | column => simp only [checkAlteration, hnew ⟨_, rfl⟩]
    | _ => rfl
  | addConstraint kind =>
    have hforeign (hk : kind = .foreign) : m.foreign = n.foreign := hmodifiers.foreign (by rw [hk])
    cases hfields with
    | column =>
      cases kind with
      | foreign => simp only [checkAddition, hforeign rfl]
      | _ => rfl
    | _ => rfl
  | _ => cases hfields <;> rfl

theorem checkPredicate_eq {method : Method}
    (h : method.takesWhere = true → m.predicate = n.predicate) :
    checkPredicate method m = checkPredicate method n := by
  unfold checkPredicate
  cases hw : method.takesWhere with
  | false => cases m.predicate <;> cases n.predicate <;> simp
  | true => rw [h hw]

theorem checkShape_eq (h : Agree resolved a b) :
    checkShape resolved.method a = checkShape resolved.method b := by
  rw [checkShape, checkShape, checkFields_eq h, checkPredicate_eq h.modifiers.predicate]

/-! ### The fit with the schema of requests that agree -/

theorem resolve_eq {x y : ColumnRef} (ht : resolved.table = .ok table)
    (h : ColumnRef.Agree resolved.table? x y) : table.resolve x = table.resolve y := by
  refine h.resolve table ?_
  unfold Resolved.table at ht
  split at ht
  · next found hfound => rw [hfound, Except.ok.inj ht]
  · cases ht

/-- What is done with the table may use all that is known of it. -/
theorem bind_table_eq {β : Type} {x y : Table → Except Error β}
    (h : ∀ table, resolved.table = .ok table → x table = y table) :
    (resolved.table >>= x) = resolved.table >>= y := by
  cases ht : resolved.table with
  | error e => rfl
  | ok table => exact h table ht

theorem fitInsert_eq {ps qs : List (ColumnRef × Value)}
    (h : List.Forall₂ (fun p q => table.resolve p.1 = table.resolve q.1) ps qs) :
    fitInsert table ps = fitInsert table qs := by
  have hgiven : (ps.mapM fun pair => (table.resolve pair.1).map Column.name) =
      qs.mapM fun pair => (table.resolve pair.1).map Column.name :=
    mapM_eq_of_forall₂ (h.imp fun _ _ hpq => congrArg (Except.map Column.name) hpq)
  unfold fitInsert
  dsimp only
  rw [hgiven]

theorem fitPlace_eq {x y : Option ColumnRef} (ht : resolved.table = .ok table)
    (h : Option.Rel (ColumnRef.Agree resolved.table?) x y) :
    fitPlace table x = fitPlace table y := by
  cases h with
  | none => rfl
  | some h => simp only [fitPlace, resolve_eq ht h, h.isFirst]

theorem fitAddition_eq {x y : Option ColumnRef} (ht : resolved.table = .ok table)
    (h : Option.Rel (ColumnRef.Agree resolved.table?) x y) (fields : Fields) :
    fitAddition table fields x = fitAddition table fields y := by
  rw [fitAddition, fitPlace_eq ht h, fitAddition]

theorem fitAlteration_eq {x y : ColumnRef} (h : table.resolve x = table.resolve y)
    (new : Option ColumnRef) : fitAlteration table x new = fitAlteration table y new := by
  rw [fitAlteration, h, fitAlteration]

theorem fitQuery_eq (ht : resolved.table = .ok table)
    (h : Fields.Agree (ColumnRef.Agree resolved.table?) f g) :
    fitQuery table f = fitQuery table g := by
  cases h with
  | column hxy => rw [fitQuery, resolve_eq ht hxy, hxy.isAll, fitQuery]
  | columns h =>
    refine forM_eq_of_forall₂ (h.imp fun x y hxy => ?_)
    exact congrArg (Except.map _) (resolve_eq ht hxy)
  | _ => rfl

theorem fitKind_eq {kind : ConstraintKind} (target : Column) (hname : m.name = n.name)
    (hforeign : kind = .foreign → m.foreign = n.foreign) :
    fitKind catalog table kind target m = fitKind catalog table kind target n := by
  cases kind with
  | foreign => rw [fitKind, hforeign rfl, hname, fitKind]
  | _ => rfl

theorem fitConstraint_eq {kind : ConstraintKind} {x y : ColumnRef}
    (h : table.resolve x = table.resolve y) (hname : m.name = n.name)
    (hforeign : kind = .foreign → m.foreign = n.foreign) :
    fitConstraint catalog table kind x m = fitConstraint catalog table kind y n := by
  simp only [fitConstraint, h, hname, fitKind_eq _ hname hforeign]

theorem fitLimit_eq {method : Method} (h : method.takesLimit = true → m.limit = n.limit) :
    fitLimit method m = fitLimit method n := by
  unfold fitLimit
  cases hl : method.takesLimit with
  | false => cases m.limit <;> cases n.limit <;> simp
  | true => rw [h hl]

theorem fitOrder_eq {uses : Bool} {x y : Option ColumnRef}
    (h : uses = true → Option.Rel (ColumnRef.Agree resolved.table?) x y) :
    fitOrder uses resolved x = fitOrder uses resolved y := by
  cases uses with
  | false => cases x <;> cases y <;> rfl
  | true =>
    cases h rfl with
    | none => rfl
    | some hxy => exact bind_table_eq fun table ht => by rw [resolve_eq ht hxy]

theorem fitFields_eq (h : Agree resolved a b) :
    fitFields catalog resolved a = fitFields catalog resolved b := by
  obtain ⟨words, reference, fields, m⟩ := a
  obtain ⟨words', reference', fields', n⟩ := b
  obtain ⟨method, table?⟩ := resolved
  obtain ⟨-, hcreation, hfields, hdefinitions, hmodifiers⟩ := h
  dsimp only at hcreation hfields hdefinitions hmodifiers
  cases method with
  | insert =>
    cases hfields with
    | values h => exact bind_table_eq fun table ht =>
      fitInsert_eq (h.imp fun p q hpq => resolve_eq ht hpq.1)
    | _ => rfl
  | update =>
    cases hfields with
    | values h =>
      refine bind_table_eq fun table ht => forM_eq_of_forall₂ (h.imp fun p q hpq => ?_)
      exact congrArg (Except.map _) (resolve_eq ht hpq.1)
    | _ => rfl
  | renameTable =>
    cases hdefinitions rfl
    cases fields <;> rfl
  | createTable temporary guarded =>
    cases hdefinitions rfl
    cases hcreation ⟨temporary, guarded, rfl⟩
    rfl
  | addColumn =>
    cases hdefinitions rfl
    exact bind_table_eq fun table ht => fitAddition_eq ht (hmodifiers.after rfl) fields
  | dropColumn =>
    cases hfields with
    | column hxy => exact bind_table_eq fun table ht => by rw [resolve_eq ht hxy]
    | _ => rfl
  | alterColumn =>
    have hnew := hmodifiers.newDefinition rfl
    cases hfields with
    | column hxy =>
      simp only [fitFields, hnew ⟨_, rfl⟩]
      exact bind_table_eq fun table ht => fitAlteration_eq (resolve_eq ht hxy) n.newDefinition
    | change hxy new =>
      exact bind_table_eq fun table ht => fitAlteration_eq (resolve_eq ht hxy) (some new)
    | _ => rfl
  | select | distinct | count => exact bind_table_eq fun table ht => fitQuery_eq ht hfields
  | addConstraint kind =>
    have hname := hmodifiers.name ⟨kind, rfl⟩
    have hforeign (hk : kind = .foreign) : m.foreign = n.foreign := hmodifiers.foreign (by rw [hk])
    cases hfields with
    | column hxy => exact bind_table_eq fun table ht =>
      fitConstraint_eq (resolve_eq ht hxy) hname hforeign
    | _ => rfl
  | _ => cases hfields <;> rfl

theorem checkSchema_eq (h : Agree resolved a b) :
    checkSchema catalog resolved a = checkSchema catalog resolved b := by
  rw [checkSchema, checkSchema, fitFields_eq h, fitLimit_eq h.modifiers.limit,
    fitOrder_eq h.modifiers.groupBy, fitOrder_eq h.modifiers.orderBy]

/-! ### The statements of requests that agree -/

theorem columnName_eq {x y : ColumnRef} (ht : resolved.table = .ok table)
    (h : ColumnRef.Agree resolved.table? x y) : columnName table x = columnName table y :=
  congrArg (Except.map Column.name) (resolve_eq ht h)

theorem projection_eq (ht : resolved.table = .ok table)
    (h : Fields.Agree (ColumnRef.Agree resolved.table?) f g) (method : Method) :
    projection method table f = projection method table g := by
  cases h with
  | column hxy =>
    cases method <;> simp only [projection, columnName_eq ht hxy, hxy.isAll]
  | columns h =>
    have hnames := mapM_eq_of_forall₂ (h.imp fun _ _ hxy => columnName_eq ht hxy)
    cases method <;> simp only [projection, hnames]
  | _ => cases method <;> rfl

theorem namedValues_eq (ht : resolved.table = .ok table)
    (h : Fields.Agree (ColumnRef.Agree resolved.table?) f g) :
    namedValues table f = namedValues table g := by
  cases h with
  | values h =>
    refine mapM_eq_of_forall₂ (h.imp fun p q hpq => ?_)
    simp only [columnName_eq ht hpq.1, hpq.2]
  | _ => rfl

theorem orderKey_eq {uses : Bool} {x y : Option ColumnRef} (ht : resolved.table = .ok table)
    (h : uses = true → Option.Rel (ColumnRef.Agree resolved.table?) x y) :
    orderKey uses table x = orderKey uses table y := by
  cases uses with
  | false => cases x <;> cases y <;> rfl
  | true =>
    cases h rfl with
    | none => rfl
    | some hxy => simp only [orderKey, resolve_eq ht hxy]

theorem clauses_eq (ht : resolved.table = .ok table)
    (h : Modifiers.Agree (ColumnRef.Agree resolved.table?) resolved.method f m n) :
    clauses resolved.method table m = clauses resolved.method table n := by
  have hpredicate : (if resolved.method.takesWhere then m.predicate else none) =
      if resolved.method.takesWhere then n.predicate else none := by
    split
    · next hw => exact h.predicate hw
    · rfl
  have hlimit : (if resolved.method.takesLimit then m.limit else none) =
      if resolved.method.takesLimit then n.limit else none := by
    split
    · next hl => exact h.limit hl
    · rfl
  rw [clauses, clauses, orderKey_eq ht h.groupBy, orderKey_eq ht h.orderBy, hpredicate, hlimit]

theorem position_eq {x y : Option ColumnRef} (ht : resolved.table = .ok table)
    (h : Option.Rel (ColumnRef.Agree resolved.table?) x y) :
    position table x = position table y := by
  cases h with
  | none => rfl
  | some hxy => simp only [position, columnName_eq ht hxy, hxy.isFirst]

theorem newConstraint_eq {kind : ConstraintKind} {x y : ColumnRef}
    (h : table.resolve x = table.resolve y) (hname : m.name = n.name)
    (hforeign : kind = .foreign → m.foreign = n.foreign) :
    newConstraint table kind x m = newConstraint table kind y n := by
  unfold newConstraint
  rw [h, hname]
  cases kind with
  | foreign => rw [hforeign rfl]
  | _ => rfl

theorem statementOf_eq (h : Agree resolved a b) :
    statementOf resolved a = statementOf resolved b := by
  obtain ⟨words, reference, fields, m⟩ := a
  obtain ⟨words', reference', fields', n⟩ := b
  obtain ⟨method, table?⟩ := resolved
  obtain ⟨htarget, hcreation, hfields, hdefinitions, hmodifiers⟩ := h
  dsimp only at htarget hcreation hfields hdefinitions hmodifiers
  unfold statementOf
  dsimp only
  rw [htarget]
  cases method with
  | select | distinct | count =>
    exact bind_table_eq fun table ht => by rw [projection_eq ht hfields, clauses_eq ht hmodifiers]
  | insert => exact bind_table_eq fun table ht => by rw [namedValues_eq ht hfields]
  | update =>
    exact bind_table_eq fun table ht => by rw [namedValues_eq ht hfields, clauses_eq ht hmodifiers]
  | delete => exact bind_table_eq fun table ht => by rw [clauses_eq ht hmodifiers]
  | createTable temporary guarded =>
    cases hdefinitions rfl
    cases hcreation ⟨temporary, guarded, rfl⟩
    have htemporary := hmodifiers.temporary (.inl ⟨temporary, guarded, rfl⟩)
    have hclobber := hmodifiers.clobber ⟨temporary, guarded, rfl⟩
    simp only [createsTemporary, htemporary, hclobber]
    rfl
  | dropTable temporary =>
    have htemporary := hmodifiers.temporary (.inr ⟨temporary, rfl⟩)
    simp only [htemporary]
  | renameTable => cases hdefinitions rfl; rfl
  | addColumn =>
    cases hdefinitions rfl
    exact bind_table_eq fun table ht => by rw [position_eq ht (hmodifiers.after rfl)]
  | dropColumn =>
    cases hfields with
    | column hxy => exact bind_table_eq fun table ht => by simp only [columnName_eq ht hxy]
    | _ => rfl
  | alterColumn =>
    have hnew := hmodifiers.newDefinition rfl
    cases hfields with
    | column hxy =>
      simp only [hnew ⟨_, rfl⟩]
      cases n.newDefinition with
      | none => rfl
      | some new => exact bind_table_eq fun table ht => by simp only [columnName_eq ht hxy]
    | change hxy new => exact bind_table_eq fun table ht => by simp only [columnName_eq ht hxy]
    | _ => rfl
  | addConstraint kind =>
    have hname := hmodifiers.name ⟨kind, rfl⟩
    have hforeign (hk : kind = .foreign) : m.foreign = n.foreign := hmodifiers.foreign (by rw [hk])
    cases hfields with
    | column hxy =>
      exact bind_table_eq fun table ht => by
        simp only [newConstraint_eq (resolve_eq ht hxy) hname hforeign]
    | _ => rfl
  | _ => cases hfields <;> rfl

/-! ### Checking and writing -/

/-- Requests with the same method and table that agree on them are valid for the same reason or
rejected with the same error, and have the same text. -/
theorem validate_text_eq (hr : a.resolve catalog = b.resolve catalog)
    (h : ∀ resolved, a.resolve catalog = .ok resolved → Agree resolved a b) :
    a.validate catalog = b.validate catalog ∧ a.text catalog = b.text catalog := by
  unfold validate text statement
  rw [← hr]
  cases hres : a.resolve catalog with
  | error e => exact ⟨rfl, rfl⟩
  | ok resolved =>
    have hagree := h resolved hres
    simp only [ok_bind, checkShape_eq hagree, checkSchema_eq hagree,
      statementOf_eq hagree, and_self]

end Request

end SchemaQuery
