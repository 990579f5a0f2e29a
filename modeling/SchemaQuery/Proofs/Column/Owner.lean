import SchemaQuery.Proofs.Table

/-! Columns that change their owner.  The key of a column follows it from one table to the next, and
no definition says which table that is.  So it makes no difference whether a table is read back from
its definitions under another name or its columns are handed over to a table of that name. -/

namespace SchemaQuery

variable {column : Column} {table : Table} {c : Constraint} {definition other : String}

/-! ### Constraints that follow their column -/

namespace Constraint

@[simp] theorem kind?_retarget (old new : ColumnKey) (c : Constraint) :
    (c.retarget old new).kind? = c.kind? := by
  cases c <;> rfl

@[simp] theorem name_retarget (old new : ColumnKey) (c : Constraint) :
    (c.retarget old new).name = c.name := by
  cases c <;> rfl

theorem target_retarget_self (c : Constraint) (new : ColumnKey) :
    (c.retarget c.target new).target = new := by
  cases c <;> exact if_pos rfl

/-- A key that follows its column twice ends where it would have gone at once. -/
theorem retarget_retarget (h : c.isKeyed = true) (middle last : ColumnKey) :
    (c.retarget c.target middle).retarget middle last = c.retarget c.target last := by
  cases c with
  | foreign key => cases h
  | _ => simp [retarget, target]

end Constraint

namespace Column

/-- Whether keys of the column itself are all the constraints that it has. -/
def HasOwnKeys (column : Column) : Prop :=
  ∀ c ∈ column.constraints, c.isKeyed = true ∧ c.target = column.key

theorem hasOwnKeys_of_ofDefinition (h : ofDefinition definition = .ok column) :
    column.HasOwnKeys := by
  obtain ⟨-, hdescribed⟩ := described_of_ofDefinition h
  rw [← hdescribed]
  intro c hc
  obtain ⟨kind, -, rfl⟩ := Option.map_eq_some_iff.mp (Option.mem_toList.mp hc)
  refine ⟨?_, target_keyed _ _ _⟩
  rw [Constraint.isKeyed, kind?_keyed]
  rfl

theorem ownedBy_ownedBy (h : column.HasOwnKeys) (first last : String) :
    (column.ownedBy first).ownedBy last = column.ownedBy last := by
  have hconstraints :
      (column.constraints.map (Constraint.retarget column.key (column.ownedBy first).key)).map
      (Constraint.retarget (column.ownedBy first).key (column.ownedBy last).key) =
        column.constraints.map (Constraint.retarget column.key (column.ownedBy last).key) := by
    rw [List.map_map]
    refine List.map_congr_left fun c hc => ?_
    obtain ⟨hkeyed, htarget⟩ := h c hc
    rw [Function.comp_apply, ← htarget]
    exact Constraint.retarget_retarget hkeyed _ _
  exact congrArg (fun constraints => { column with owner := some last, constraints }) hconstraints

theorem keyKind?_ownedBy (column : Column) (name : String) :
    (column.ownedBy name).keyKind? = column.keyKind? := by
  have hany : ∀ kind : KeyKind,
      ((column.ownedBy name).constraints.any fun c => c.kind? == some kind) =
        column.constraints.any fun c => c.kind? == some kind := fun kind => by
    rw [ownedBy, List.any_map]
    simp [Function.comp_def]
  rw [keyKind?, keyKind?]
  simp only [hany]

/-- A definition does not say to which table its column belongs. -/
theorem definition_ownedBy (column : Column) (name : String) :
    (column.ownedBy name).definition = column.definition := by
  rw [definition, definition, Definition.print, Definition.print, keyKind?_ownedBy]
  rfl

/-- Whether a column is another one as a column of a table of that name.  Its constraints are those
of the other one, but on that table. -/
structure IsMoved (other : String) (column moved : Column) : Prop where
  owner : moved.owner = some other
  name : moved.name = column.name
  type : moved.type = column.type
  nullable : moved.nullable = column.nullable
  defaultValue : moved.defaultValue = column.defaultValue
  visible : moved.visible = column.visible
  autoIncrement : moved.autoIncrement = column.autoIncrement
  comment : moved.comment = column.comment
  constraints : List.Forall₂ (fun c d => d.kind? = c.kind? ∧ d.name = c.name ∧
    d.target = ⟨some other, column.name⟩) column.constraints moved.constraints

theorem HasOwnKeys.isMoved (h : column.HasOwnKeys) (other : String) :
    column.IsMoved other (column.ownedBy other) := by
  refine ⟨rfl, rfl, rfl, rfl, rfl, rfl, rfl, rfl, ?_⟩
  rw [ownedBy, List.forall₂_map_right_iff, List.forall₂_same]
  intro c hc
  obtain ⟨-, htarget⟩ := h c hc
  rw [← htarget]
  exact ⟨c.kind?_retarget _ _, c.name_retarget _ _, c.target_retarget_self _⟩

theorem HasOwnKeys.ownedBy (h : column.HasOwnKeys) (other : String) :
    (column.ownedBy other).HasOwnKeys := by
  refine List.forall_mem_map.mpr fun c hc => ?_
  obtain ⟨hkeyed, htarget⟩ := h c hc
  rw [← htarget]
  refine ⟨?_, c.target_retarget_self _⟩
  rwa [Constraint.isKeyed, Constraint.kind?_retarget]

end Column

namespace Table

/-- A table that was read from definitions is read back from those of its columns, under any name,
as the table that its columns make under that name.  Only their owner and that of their keys are
other ones then; under the name of the table itself nothing is. -/
theorem ofDefinitions_other {name : String} {definitions : List String}
    (h : ofDefinitions name definitions = .ok table) (other : String) : ∃ again,
      ofDefinitions other (table.columns.map Column.definition) = .ok again ∧
        make other table.columns = .ok again ∧
      again.name = other ∧ List.Forall₂ (Column.IsMoved other) table.columns again.columns ∧
      (other = table.name → again = table) := by
  obtain ⟨columns, hread, hnames, rfl⟩ := ofDefinitions_eq_ok_iff.mp h
  have hcolumns : ∀ column ∈ columns,
      ∃ definition, Column.ofDefinition definition = .ok column := fun column hc => by
    obtain ⟨definition, -, hdefinition⟩ := exists_of_mem_mapM hread hc
    exact ⟨definition, hdefinition⟩
  have hown : ∀ column ∈ columns, column.HasOwnKeys := fun column hc => by
    obtain ⟨definition, hdefinition⟩ := hcolumns column hc
    exact Column.hasOwnKeys_of_ofDefinition hdefinition
  have hdefinitions : (columns.map (Column.ownedBy · name)).map Column.definition =
      columns.map Column.definition := by
    rw [List.map_map]
    exact List.map_congr_left fun column _ => column.definition_ownedBy name
  have hagain : (columns.map Column.definition).mapM Column.ofDefinition = .ok columns := by
    rw [mapM_eq_ok_iff, List.forall₂_map_left_iff, List.forall₂_same]
    intro column hc
    obtain ⟨definition, hdefinition⟩ := hcolumns column hc
    obtain ⟨hdefinable, hdescribed⟩ := Column.described_of_ofDefinition hdefinition
    rw [Column.ofDefinition_definition hdefinable, hdescribed]
  have hmoved : (columns.map (Column.ownedBy · name)).map (Column.ownedBy · other) =
      columns.map (Column.ownedBy · other) := by
    rw [List.map_map]
    exact List.map_congr_left fun column hc => Column.ownedBy_ownedBy (hown column hc) name other
  refine ⟨{ name := other, columns := columns.map (Column.ownedBy · other) }, ?_, ?_, rfl, ?_, ?_⟩
  · rw [hdefinitions]
    exact ofDefinitions_eq_ok_iff.mpr ⟨columns, hagain, hnames, rfl⟩
  · refine make_eq_ok_iff.mpr ⟨?_, by rw [hmoved]⟩
    rwa [List.map_map]
  · rw [← hmoved, List.forall₂_map_right_iff, List.forall₂_same]
    exact List.forall_mem_map.mpr fun column hc => ((hown column hc).ownedBy name).isMoved other
  · rintro rfl
    rfl

/-- A table with a primary key and a unique column with a blank in its name, under another name. -/
theorem ofDefinitions_other_people :
    let definitions :=
      ["id int primary key", "\x60e mail\x60 varchar(255) not null unique key comment 'it''s'"]
    let users : Table :=
      { name := "users"
        columns :=
          [{ owner := some "users", name := "id", type := "int", nullable := false,
             constraints := [.primary { name := "primary", target := ⟨some "users", "id"⟩ }] },
            { owner := some "users", name := "e mail", type := "varchar(255)", nullable := false,
              comment := "it's",
              constraints := [.unique { name := "unique", target := ⟨some "users", "e mail"⟩ }] }] }
    ofDefinitions "users" definitions = .ok users ∧ ∃ again,
      ofDefinitions "people" (users.columns.map Column.definition) = .ok again ∧
      make "people" users.columns = .ok again ∧ again.name = "people" ∧
      List.Forall₂ (Column.IsMoved "people") users.columns again.columns ∧
      ("people" = users.name → again = users) := by
  intro definitions users
  have h : ofDefinitions "users" definitions = .ok users := by decide +kernel
  exact ⟨h, ofDefinitions_other h "people"⟩

end Table

end SchemaQuery
