import SchemaQuery.Proofs.Request.Statement

/-! What can be wrong with a request.  A fault of shape is found without the catalog and reported
before any other; what is left for the schema to find is a semantic fault, since the definitions and
qualified names that it reads again have been read before. -/

namespace SchemaQuery

variable {α β : Type} {kind : Error → Bool} {x : Except Error α}

/-- Whether a computation fails with errors of a kind only. -/
def FailsWith (kind : Error → Bool) (x : Except Error α) : Prop := ∀ e, x = .error e → kind e = true

theorem failsWith_ok (a : α) : FailsWith kind (.ok a) := fun _ h => nomatch h

theorem failsWith_error {e : Error} (h : kind e = true) :
    FailsWith kind (.error e : Except Error α) := by
  rintro _ ⟨⟩
  exact h

theorem failsWith_of_eq_ok {a : α} (h : x = .ok a) : FailsWith kind x := h ▸ failsWith_ok a

theorem FailsWith.bind {f : α → Except Error β} (hx : FailsWith kind x)
    (hf : ∀ a, x = .ok a → FailsWith kind (f a)) : FailsWith kind (x >>= f) := by
  cases x with
  | error e => exact failsWith_error (hx e rfl)
  | ok a => exact hf a rfl

theorem FailsWith.map (f : α → β) (hx : FailsWith kind x) : FailsWith kind (x.map f) :=
  fun e h => hx e (map_eq_error_iff.mp h)

theorem FailsWith.seqRight {y : Except Error β} (hx : FailsWith kind x) (hy : FailsWith kind y) :
    FailsWith kind (x *> y) := by
  cases x with
  | error e => exact failsWith_error (hx e rfl)
  | ok a => exact hy

theorem FailsWith.mapM {f : α → Except Error β} {items : List α}
    (h : ∀ a ∈ items, FailsWith kind (f a)) : FailsWith kind (items.mapM f) := by
  induction items with
  | nil => exact failsWith_ok []
  | cons a rest ih =>
    rw [List.mapM_cons]
    refine (h a List.mem_cons_self).bind fun b _ => ?_
    exact (ih fun a ha => h a (List.mem_cons_of_mem _ ha)).bind fun bs _ => failsWith_ok (b :: bs)

theorem FailsWith.forM {f : α → Except Error Unit} {items : List α}
    (h : ∀ a ∈ items, FailsWith kind (f a)) : FailsWith kind (items.forM f) := by
  induction items with
  | nil => exact failsWith_ok ()
  | cons a rest ih =>
    refine (h a List.mem_cons_self).bind fun _ _ => ?_
    exact ih fun a ha => h a (List.mem_cons_of_mem _ ha)

namespace Request

variable {catalog : Catalog} {request : Request} {resolved : Resolved} {table : Table}

/-! ### Faults of shape -/

theorem failsWith_ofDefinition (definition : String) :
    FailsWith Error.isStructural (Column.ofDefinition definition) := by
  rw [Column.ofDefinition]
  cases Definition.parse definition with
  | error fault => exact failsWith_error rfl
  | ok column => exact failsWith_ok column

theorem failsWith_toColumn (reference : ColumnRef) :
    FailsWith Error.isStructural reference.toColumn := by
  cases reference with
  | byName text => exact failsWith_ofDefinition text
  | byValue column => exact failsWith_ok column

theorem failsWith_splitDefinitions (reference : ColumnRef) :
    FailsWith Error.isStructural reference.splitDefinitions := by
  cases reference with
  | byValue column => exact failsWith_ok _
  | byName text =>
    rw [ColumnRef.splitDefinitions]
    split
    case h_1 => exact failsWith_error rfl
    case h_2 => exact failsWith_error rfl
    case h_3 => exact failsWith_ok _

theorem failsWith_splitQualified (reference : ColumnRef) :
    FailsWith Error.isStructural reference.splitQualified := by
  cases reference with
  | byValue column =>
    rw [ColumnRef.splitQualified]
    split
    case h_1 => exact failsWith_ok _
    case h_2 => exact failsWith_error rfl
  | byName text =>
    rw [ColumnRef.splitQualified]
    split
    case h_1 =>
      split
      case isTrue => exact failsWith_error rfl
      case isFalse => exact failsWith_ok _
    case h_2 => exact failsWith_error rfl

theorem failsWith_checkType (column : Column) :
    FailsWith Error.isStructural (checkType column) := by
  rw [checkType]
  split
  case isTrue => exact failsWith_ok ()
  case isFalse => exact failsWith_error rfl

theorem failsWith_checkDefinition (reference : ColumnRef) :
    FailsWith Error.isStructural (checkDefinition reference) :=
  (failsWith_toColumn reference).bind fun column _ => failsWith_checkType column

theorem failsWith_checkValues (method : Method) (fields : Fields) :
    FailsWith Error.isStructural (checkValues method fields) := by
  unfold checkValues
  split
  case h_2 => exact failsWith_ok ()
  all_goals exact failsWith_error rfl

theorem failsWith_checkNewName (fields : Fields) :
    FailsWith Error.isStructural (checkNewName fields) := by
  unfold checkNewName
  split
  case h_1 =>
    split
    case isTrue => exact failsWith_error rfl
    case isFalse => exact failsWith_ok ()
  case h_2 => exact failsWith_error rfl

/-- The definitions of a new table, read one by one. -/
theorem failsWith_checkDefinitions {read : Except Error (List ColumnRef)}
    (h : FailsWith Error.isStructural read) :
    FailsWith Error.isStructural (do
      let references ← read
      if references.isEmpty then throw (.shape .noDefinitions)
      references.forM checkDefinition) := by
  refine h.bind fun references _ => ?_
  split
  case isTrue => exact failsWith_error rfl
  case isFalse => exact FailsWith.forM fun reference _ => failsWith_checkDefinition reference

theorem failsWith_checkCreation (reference : TableRef) (fields : Fields) :
    FailsWith Error.isStructural (checkCreation reference fields) := by
  unfold checkCreation
  split
  case h_1 table =>
    split
    case isTrue => exact failsWith_error rfl
    case isFalse => exact FailsWith.forM fun column _ => failsWith_checkType column
  case h_2 column => exact failsWith_checkDefinitions (failsWith_splitDefinitions column)
  case h_3 columns =>
    exact failsWith_checkDefinitions
      ((FailsWith.mapM fun column _ => failsWith_splitDefinitions column).map _)
  case h_4 => exact failsWith_error rfl

theorem failsWith_checkAlteration (fields : Fields) (modifiers : Modifiers) :
    FailsWith Error.isStructural (checkAlteration fields modifiers) := by
  unfold checkAlteration
  split
  case h_1 =>
    split
    case h_1 new _ => exact failsWith_checkDefinition new
    case h_2 => exact failsWith_error rfl
  case h_2 old new => exact failsWith_checkDefinition new
  case h_3 => exact failsWith_error rfl

theorem failsWith_checkAddition (kind : ConstraintKind) (fields : Fields) (modifiers : Modifiers) :
    FailsWith Error.isStructural (checkAddition kind fields modifiers) := by
  unfold checkAddition
  split
  case h_1 =>
    split
    case isTrue =>
      split
      case h_1 foreign _ => exact (failsWith_splitQualified foreign).map _
      case h_2 => exact failsWith_error rfl
    case isFalse => exact failsWith_ok ()
  case h_2 => exact failsWith_error rfl

theorem failsWith_checkFields (method : Method) (request : Request) :
    FailsWith Error.isStructural (checkFields method request) := by
  unfold checkFields
  generalize request.fields = fields
  cases method with
  | insert | update => exact failsWith_checkValues _ fields
  | renameTable => exact failsWith_checkNewName fields
  | createTable temporary guarded => exact failsWith_checkCreation request.table fields
  | alterColumn => exact failsWith_checkAlteration fields request.modifiers
  | addConstraint kind => exact failsWith_checkAddition kind fields request.modifiers
  | addColumn =>
    cases fields with
    | column reference => exact failsWith_checkDefinition reference
    | _ => exact failsWith_error rfl
  | dropColumn | dropConstraint | select | distinct | count =>
    cases fields <;> first | exact failsWith_ok () | exact failsWith_error rfl
  | delete | dropTable | showTables | describe | truncate => exact failsWith_ok ()

theorem failsWith_checkPredicate (method : Method) (modifiers : Modifiers) :
    FailsWith Error.isStructural (checkPredicate method modifiers) := by
  unfold checkPredicate
  split
  case h_1 =>
    split
    case isTrue => exact failsWith_error rfl
    case isFalse => exact failsWith_ok ()
  case h_2 => exact failsWith_ok ()

theorem failsWith_checkShape (method : Method) (request : Request) :
    FailsWith Error.isStructural (checkShape method request) :=
  (failsWith_checkFields method request).bind fun _ _ => failsWith_checkPredicate method _

/-! ### Faults of the schema -/

theorem failsWith_checkNameLength (name : String) :
    FailsWith Error.isSemantic (checkNameLength name) := by
  rw [checkNameLength]
  split
  case isTrue => exact failsWith_error rfl
  case isFalse => exact failsWith_ok ()

theorem failsWith_resolve (table : Table) (reference : ColumnRef) :
    FailsWith Error.isSemantic (table.resolve reference) := by
  rw [Table.resolve]
  split
  case h_1 column _ => exact failsWith_ok column
  case h_2 => exact failsWith_error rfl

theorem failsWith_fitInsert (table : Table) (pairs : List (ColumnRef × Value)) :
    FailsWith Error.isSemantic (fitInsert table pairs) := by
  refine (FailsWith.mapM fun pair _ =>
    (failsWith_resolve table pair.1).map _).bind fun given _ => ?_
  extract_lets missing
  cases missing with
  | some column => exact failsWith_error rfl
  | none => exact failsWith_ok ()

theorem toColumn_of_checkDefinition {reference : ColumnRef}
    (h : checkDefinition reference = .ok ()) : ∃ column, reference.toColumn = .ok column := by
  obtain ⟨column, hc, -⟩ := bind_eq_ok_iff.mp h
  exact ⟨column, hc⟩

/-- The columns of a creation that was checked can be read again. -/
theorem exists_plannedColumns (h : checkCreation request.table request.fields = .ok ()) :
    ∃ columns, plannedColumns request = .ok columns := by
  have read (hf : (∃ column, request.fields = .column column) ∨
      ∃ columns, request.fields = .columns columns) :
      ∃ columns, (definitions request.fields >>= List.mapM ColumnRef.toColumn) = .ok columns := by
    obtain ⟨references, hd, hall⟩ := definitions_of_checkCreation h hf
    exact exists_bind_eq_ok_iff.mpr ⟨references, hd, exists_mapM_eq_ok_iff.mpr fun reference hr =>
      toColumn_of_checkDefinition (hall reference hr)⟩
  unfold plannedColumns
  split
  case h_1 table _ _ => exact ⟨table.columns, rfl⟩
  case h_2 column hf => exact read (.inl ⟨column, hf⟩)
  case h_3 columns hf => exact read (.inr ⟨columns, hf⟩)
  case h_4 hcolumn hcolumns hnothing =>
    unfold checkCreation at h
    split at h
    case h_1 ht hf => exact absurd hf (hnothing _ ht)
    case h_2 column hf => exact absurd hf (hcolumn column)
    case h_3 columns hf => exact absurd hf (hcolumns columns)
    case h_4 => cases h

theorem failsWith_fitCreation (h : checkCreation request.table request.fields = .ok ()) :
    FailsWith Error.isSemantic (fitCreation request) := by
  obtain ⟨columns, hc⟩ := exists_plannedColumns h
  refine (failsWith_of_eq_ok hc).bind fun columns _ => ?_
  cases firstRepeated? [] (columns.map Column.name) with
  | some name => exact failsWith_error rfl
  | none => exact failsWith_ok ()

theorem failsWith_fitNewColumn {reference : ColumnRef} (h : checkDefinition reference = .ok ()) :
    FailsWith Error.isSemantic (fitNewColumn table (.column reference)) := by
  obtain ⟨column, hc⟩ := toColumn_of_checkDefinition h
  rw [fitNewColumn, hc, ok_bind]
  split
  case isTrue => exact failsWith_error rfl
  case isFalse => exact failsWith_ok ()

theorem failsWith_fitPlace (after : Option ColumnRef) :
    FailsWith Error.isSemantic (fitPlace table after) := by
  cases after with
  | none => exact failsWith_ok ()
  | some after =>
    rw [fitPlace]
    split
    case isTrue => exact failsWith_ok ()
    case isFalse => exact (failsWith_resolve table after).map _

theorem failsWith_fitAddition {reference : ColumnRef} (h : checkDefinition reference = .ok ())
    (after : Option ColumnRef) :
    FailsWith Error.isSemantic (fitAddition table (.column reference) after) :=
  (failsWith_fitNewColumn h).bind fun _ _ => failsWith_fitPlace after

theorem failsWith_fitAlteration (old : ColumnRef) {new : ColumnRef}
    (h : checkDefinition new = .ok ()) :
    FailsWith Error.isSemantic (fitAlteration table old (some new)) := by
  obtain ⟨renamed, hc⟩ := toColumn_of_checkDefinition h
  refine (failsWith_resolve table old).bind fun column _ => ?_
  dsimp only
  rw [hc, ok_bind]
  split
  case isTrue => exact failsWith_error rfl
  case isFalse => exact failsWith_ok ()

theorem failsWith_fitQuery (table : Table) (fields : Fields) :
    FailsWith Error.isSemantic (fitQuery table fields) := by
  cases fields with
  | column reference =>
    rw [fitQuery]
    split
    case isTrue => exact failsWith_ok ()
    case isFalse => exact (failsWith_resolve table reference).seqRight (failsWith_ok ())
  | columns references =>
    exact FailsWith.forM fun reference _ => (failsWith_resolve table reference).map _
  | _ => exact failsWith_ok ()

theorem failsWith_fitForeign (target : Column) {reference : ColumnRef} (name : Option String)
    {parts : String × String} (h : reference.splitQualified = .ok parts) :
    FailsWith Error.isSemantic (fitForeign catalog table target reference name) := by
  unfold fitForeign
  rw [h, ok_bind]
  dsimp only
  split
  case isTrue => exact failsWith_error rfl
  case isFalse =>
    cases catalog.table? parts.1 with
    | none => exact failsWith_error rfl
    | some other =>
      cases ho : other.column? parts.2 with
      | none => simpa only [ho] using failsWith_error rfl
      | some foreign =>
        simp only [ho]
        split
        case isTrue => exact failsWith_checkNameLength _
        case isFalse => exact failsWith_ok ()

theorem failsWith_fitName (name : Option String) : FailsWith Error.isSemantic (fitName name) := by
  cases name with
  | some name => exact failsWith_checkNameLength name
  | none => exact failsWith_ok ()

/-- The reference of a foreign key is there and splits, since the shape has been checked. -/
theorem failsWith_fitKind {kind : ConstraintKind} {reference : ColumnRef} {modifiers : Modifiers}
    (h : checkAddition kind (.column reference) modifiers = .ok ()) (target : Column) :
    FailsWith Error.isSemantic (fitKind catalog table kind target modifiers) := by
  cases kind with
  | index | unique => exact failsWith_ok ()
  | primary =>
    rw [fitKind]
    split
    case isTrue => exact failsWith_error rfl
    case isFalse => exact failsWith_ok ()
  | foreign =>
    rw [fitKind]
    cases hforeign : modifiers.foreign with
    | none =>
      simp only [checkAddition, hforeign, if_true] at h
      cases h
    | some foreign =>
      simp only [checkAddition, hforeign, if_true] at h
      obtain ⟨parts, hp, -⟩ := map_eq_ok_iff.mp h
      exact failsWith_fitForeign target modifiers.name hp

theorem failsWith_fitConstraint {kind : ConstraintKind} {reference : ColumnRef}
    {modifiers : Modifiers} (h : checkAddition kind (.column reference) modifiers = .ok ()) :
    FailsWith Error.isSemantic (fitConstraint catalog table kind reference modifiers) := by
  refine (failsWith_resolve table reference).bind fun target _ => ?_
  exact (failsWith_fitKind h target).bind fun _ _ => failsWith_fitName modifiers.name

/-- A method that needs a table has one once its request is resolved. -/
theorem failsWith_table (hr : request.resolve catalog = .ok resolved)
    (hneeds : resolved.method.needsTable = true) {f : Table → Except Error α}
    (h : ∀ table, FailsWith kind (f table)) : FailsWith kind (resolved.table >>= f) := by
  obtain ⟨table, ht⟩ := exists_table_of_resolve hr hneeds
  rw [ht]
  exact h table

/-- The fields of a request whose shape has been checked have no other faults than semantic ones.
The internal errors of a part that is missing are out of reach: each is for fields that the method
does not take. -/
theorem failsWith_fitFields (hr : request.resolve catalog = .ok resolved)
    (h : checkFields resolved.method request = .ok ()) :
    FailsWith Error.isSemantic (fitFields catalog resolved request) := by
  unfold fitFields
  cases hm : resolved.method with
  | createTable temporary guarded =>
    rw [hm] at h
    exact failsWith_fitCreation h
  | insert =>
    rw [hm] at h
    obtain ⟨pairs, hf, -⟩ := checkValues_eq_ok_iff.mp h
    refine failsWith_table hr (by rw [hm]; rfl) fun table => ?_
    rw [hf]
    exact failsWith_fitInsert table pairs
  | update =>
    refine failsWith_table hr (by rw [hm]; rfl) fun table => ?_
    cases request.fields with
    | values pairs => exact FailsWith.forM fun pair _ => (failsWith_resolve table pair.1).map _
    | _ => exact failsWith_ok ()
  | renameTable =>
    rw [hm, checkFields] at h
    cases hf : request.fields with
    | column reference =>
      dsimp only
      split
      case isTrue => exact failsWith_error rfl
      case isFalse => exact failsWith_ok ()
    | _ =>
      rw [hf] at h
      cases h
  | dropColumn =>
    cases request.fields with
    | column reference =>
      refine failsWith_table hr (by rw [hm]; rfl) fun table => ?_
      exact (failsWith_resolve table reference).seqRight (failsWith_ok ())
    | _ => exact failsWith_ok ()
  | addColumn =>
    rw [hm, checkFields] at h
    refine failsWith_table hr (by rw [hm]; rfl) fun table => ?_
    cases hf : request.fields with
    | column reference =>
      rw [hf] at h
      exact failsWith_fitAddition h request.modifiers.after
    | _ =>
      rw [hf] at h
      cases h
  | alterColumn =>
    rw [hm] at h
    obtain ⟨old, new, hf | ⟨hf, hnew⟩, hdefinition⟩ := checkAlteration_eq_ok_iff.mp h
    all_goals
      refine failsWith_table hr (by rw [hm]; rfl) fun table => ?_
      rw [hf]
    · exact failsWith_fitAlteration old hdefinition
    · dsimp only
      rw [hnew]
      exact failsWith_fitAlteration old hdefinition
  | select | distinct | count =>
    exact failsWith_table hr (by rw [hm]; rfl) fun table => failsWith_fitQuery table request.fields
  | addConstraint kind =>
    rw [hm, checkFields] at h
    refine failsWith_table hr (by rw [hm]; rfl) fun table => ?_
    cases hf : request.fields with
    | column reference =>
      rw [hf] at h
      exact failsWith_fitConstraint h
    | _ =>
      rw [hf] at h
      cases h
  | dropConstraint =>
    refine failsWith_table hr (by rw [hm]; rfl) fun table => ?_
    cases request.fields with
    | constraint dropped =>
      dsimp only
      split
      case isTrue => exact failsWith_ok ()
      case isFalse => exact failsWith_error rfl
    | _ => exact failsWith_ok ()
  | delete | dropTable | showTables | describe | truncate => exact failsWith_ok ()

theorem failsWith_fitLimit (method : Method) (modifiers : Modifiers) :
    FailsWith Error.isSemantic (fitLimit method modifiers) := by
  unfold fitLimit
  split
  case h_1 =>
    split
    case isTrue => exact failsWith_error rfl
    case isFalse => exact failsWith_ok ()
  case h_2 => exact failsWith_ok ()

/-- Only methods that have a table group or order its rows. -/
theorem failsWith_fitOrder {uses : Bool} (hr : request.resolve catalog = .ok resolved)
    (h : uses = true → resolved.method.needsTable = true) (reference : Option ColumnRef) :
    FailsWith Error.isSemantic (fitOrder uses resolved reference) := by
  cases reference with
  | none => exact failsWith_ok ()
  | some reference =>
    cases uses with
    | false => exact failsWith_ok ()
    | true =>
      refine failsWith_table hr (h rfl) fun table => ?_
      exact (failsWith_resolve table reference).seqRight (failsWith_ok ())

theorem failsWith_checkSchema (hr : request.resolve catalog = .ok resolved)
    (h : checkShape resolved.method request = .ok ()) :
    FailsWith Error.isSemantic (checkSchema catalog resolved request) := by
  refine (failsWith_fitFields hr (checkShape_eq_ok_iff.mp h).1).bind fun _ _ => ?_
  refine (failsWith_fitLimit resolved.method request.modifiers).bind fun _ _ => ?_
  refine (failsWith_fitOrder hr (fun huse => ?_) _).bind fun _ _ =>
    failsWith_fitOrder hr (fun huse => ?_) _
  all_goals
    generalize resolved.method = method at huse
    cases method <;> first | rfl | cases huse

/-! ### Validation -/

theorem isSemantic_of_isStructural {e : Error} (h : e.isStructural = true) :
    e.isSemantic = false := by
  cases e <;> first | rfl | cases h

/-- Structural errors come from the shape alone. -/
theorem validate_eq_structural_iff {e : Error} (hr : request.resolve catalog = .ok resolved)
    (he : e.isStructural = true) :
    request.validate catalog = .error e ↔ checkShape resolved.method request = .error e := by
  rw [validate, hr, ok_bind]
  cases hshape : checkShape resolved.method request with
  | error fault =>
    rw [error_bind]
    simp
  | ok _ =>
    rw [ok_bind]
    cases hschema : checkSchema catalog resolved request with
    | ok _ =>
      rw [ok_bind]
      simp
    | error fault =>
      have hsemantic := failsWith_checkSchema hr hshape fault hschema
      have hne : fault ≠ e := by
        rintro rfl
        rw [isSemantic_of_isStructural he] at hsemantic
        cases hsemantic
      rw [error_bind]
      simp [hne]

theorem resolveTable_error_cases {method : Method} {reference : TableRef} {e : Error}
    (h : resolveTable catalog method reference = .error e) : ∃ fault, e = .table fault := by
  unfold resolveTable at h
  extract_lets known at h
  have hknown (hk : known = .error e) : ∃ fault, e = .table fault := by
    cases ht : catalog.table? reference.name <;> simp only [known, ht] at hk <;> cases hk
    exact ⟨_, rfl⟩
  split at h
  case h_1 => cases h
  case h_2 =>
    split at h
    case isTrue =>
      cases h
      exact ⟨_, rfl⟩
    case isFalse =>
      split at h <;> cases h
      exact ⟨_, rfl⟩
  case h_3 =>
    split at h
    case h_1 =>
      split at h
      case isTrue => cases h
      case isFalse => exact hknown h
    case h_2 => exact hknown h

theorem resolve_error_cases {e : Error} (h : request.resolve catalog = .error e) :
    e = .connectionNotOpen ∨ (∃ fault, e = .method fault) ∨ ∃ fault, e = .table fault := by
  unfold resolve at h
  split at h
  case isFalse =>
    cases h
    exact .inl rfl
  case isTrue =>
    cases hm : Method.ofText request.method with
    | error fault =>
      rw [hm, error_bind] at h
      cases h
      rw [Method.ofText] at hm
      cases hw : Method.ofWords request.method
        fun word => (Text.words (Text.lower request.method)).contains word with
      | error fault =>
        rw [hw] at hm
        cases hm
        exact .inr (.inl ⟨fault, rfl⟩)
      | ok method =>
        rw [hw] at hm
        cases hm
    | ok method =>
      rw [hm, ok_bind] at h
      cases ht : resolveTable catalog method request.table with
      | error fault =>
        rw [ht, error_bind] at h
        cases h
        exact .inr (.inr (resolveTable_error_cases ht))
      | ok found =>
        rw [ht, ok_bind] at h
        cases h

theorem validate_error_cases {e : Error} (h : request.validate catalog = .error e) :
    e = .connectionNotOpen ∨ (∃ fault, e = .method fault) ∨ (∃ fault, e = .table fault) ∨
      e.isStructural = true ∨ e.isSemantic = true := by
  unfold validate at h
  cases hr : request.resolve catalog with
  | error fault =>
    rw [hr, error_bind] at h
    cases h
    obtain hclosed | hmethod | htable := resolve_error_cases hr
    · exact .inl hclosed
    · exact .inr (.inl hmethod)
    · exact .inr (.inr (.inl htable))
  | ok resolved =>
    rw [hr, ok_bind] at h
    cases hshape : checkShape resolved.method request with
    | error fault =>
      rw [hshape, error_bind] at h
      cases h
      exact .inr (.inr (.inr (.inl (failsWith_checkShape _ _ _ hshape))))
    | ok _ =>
      rw [hshape, ok_bind] at h
      cases hschema : checkSchema catalog resolved request with
      | error fault =>
        rw [hschema, error_bind] at h
        cases h
        exact .inr (.inr (.inr (.inr (failsWith_checkSchema hr hshape _ hschema))))
      | ok _ =>
        rw [hschema, ok_bind] at h
        cases h

/-- Faults of shape come first and do not depend on the schema: two catalogs in which a request has
its method and its table report the same one, whatever else is wrong with the request.  Besides, a
request is rejected because the connection is closed, or for its method, its table, its shape or its
fit with the schema, and for nothing else. -/
theorem validate_structural_first :
    (∀ (request : Request) (here there : Catalog) (found other : Resolved),
      request.resolve here = .ok found → request.resolve there = .ok other →
      ∀ e : Error, e.isStructural = true →
        (request.validate here = .error e ↔ request.validate there = .error e)) ∧
    ∀ (catalog : Catalog) (request : Request),
      (∃ resolved, request.validate catalog = .ok resolved) ∨
      ∃ e, request.validate catalog = .error e ∧
        (e = .connectionNotOpen ∨ (∃ fault, e = .method fault) ∨
        (∃ fault, e = .table fault) ∨ e.isStructural = true ∨ e.isSemantic = true) := by
  constructor
  · intro request here there found other hfound hother e he
    have hmethod : found.method = other.method := by
      obtain ⟨-, hf, -⟩ := resolve_eq_ok_iff.mp hfound
      obtain ⟨-, ho, -⟩ := resolve_eq_ok_iff.mp hother
      exact Except.ok.inj (hf.symm.trans ho)
    rw [validate_eq_structural_iff hfound he, validate_eq_structural_iff hother he, hmethod]
  · intro catalog request
    cases hv : request.validate catalog with
    | ok resolved => exact .inl ⟨resolved, rfl⟩
    | error e => exact .inr ⟨e, rfl, validate_error_cases hv⟩

/-- A new column of an unknown type, whose name is taken in one of the catalogs and which goes after
a column that neither has. -/
theorem validate_structural_first_addition :
    let request : Request :=
      { method := "add column", table := .byName "users", fields := .column (.byName "id uuid"),
        modifiers := { after := some (.byName "missing") } }
    let users : Table :=
      { name := "users", columns := [{ name := "id", owner := some "users", type := "int" }] }
    let here : Catalog := ⟨true, [users]⟩
    let there : Catalog := ⟨true, [{ users with columns := [] }]⟩
    let fault : Error := .shape (.unknownType "uuid" "id")
    request.validate here = .error fault ∧
      request.resolve here = .ok ⟨.addColumn, some users⟩ ∧
      request.resolve there = .ok ⟨.addColumn, some { users with columns := [] }⟩ ∧
      fault.isStructural = true ∧
      (request.validate here = .error fault ↔ request.validate there = .error fault) :=
  ⟨by decide +kernel, rfl, rfl, rfl, validate_structural_first.1 _ _ _ _ _ rfl rfl _ rfl⟩

end Request

end SchemaQuery
