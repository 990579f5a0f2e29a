import SchemaQuery.MySql.Description
import SchemaQuery.Proofs.Column.Definition.RoundTrip
import SchemaQuery.Proofs.MySql.Token

/-! Descriptions of tables read back.  The definition that is written for a row of a description
gives the column of the row again exactly when its default has the form of one: a default is written
as it is unless its type takes text, and what it then says is for the reader of definitions to find
out. -/

namespace SchemaQuery.MySql

open Definition

variable {row : Row} {name type value definition : String} {column : Column}

/-! ### The column of a row -/

/-- The text that tells how the engine treats the column. -/
def extraOf (row : Row) : String := Text.lower ((field? row "Extra").getD "")

/-- The default as the definition of a row writes it. -/
def writtenDefault (row : Row) : Option String :=
  (field? row "Default").map fun value =>
    defaultText ((field? row "Type").getD "") value (extraOf row)

/-- The column that a row is about, with its key. -/
def columnOf (row : Row) (name type : String) : Column :=
  { name, type
    nullable := (field? row "Null").any (Text.sameLetters · "yes") &&
      decide (keyOfField? (field? row "Key") ≠ some .primary)
    autoIncrement := Text.occursIn "auto_increment" (extraOf row)
    visible := !Text.occursIn "invisible" (extraOf row)
    defaultValue := writtenDefault row
    constraints := keyConstraints name (keyOfField? (field? row "Key")) }

theorem describedColumn_eq (hname : field? row "Field" = some name)
    (htype : field? row "Type" = some type) :
    describedColumn row = .ok (columnOf row name type) := by
  unfold describedColumn
  rw [hname, htype]
  dsimp only
  cases hkey : keyOfField? (field? row "Key") with
  | none => simp [columnOf, writtenDefault, extraOf, htype, hkey, keyConstraints]
  | some kind => simp [columnOf, writtenDefault, extraOf, htype, hkey, withKey_eq]

theorem keyOfField_eq_primary_iff {key : Option String} :
    keyOfField? key = some .primary ↔ key = some "PRI" := by
  constructor
  · intro h
    unfold keyOfField? at h
    split at h
    · rfl
    all_goals cases h
  · rintro rfl
    rfl

/-! ### Defaults that are read back -/

/-- Whether a text is read as a default: it is cut into a token and further ones outside the
grammar. -/
def IsReadable (value : String) : Prop := ∃ parts, tokens value = .ok parts ∧ IsDefault parts

/-- A text with one blank between its tokens; one that cannot be cut stays as it is. -/
def respaced (value : String) : String :=
  match tokens value with
  | .ok parts => " ".intercalate parts
  | .error _ => value

theorem respaced_of_tokens {parts : List String} (h : tokens value = .ok parts) :
    respaced value = " ".intercalate parts := by
  rw [respaced, h]

/-- A quoted text holds no blank that counts. -/
theorem pieces_escaped (text : List Char) :
    pieces Text.isBlank (.quoted 0 '\'' false) (text.flatMap escapeChar ++ ['\'']) =
      .ok (text.flatMap escapeChar ++ ['\''], []) := by
  induction text with
  | nil => rfl
  | cons c rest ih =>
    rw [List.flatMap_cons, List.append_assoc]
    obtain ⟨d, hc, -⟩ | ⟨hc, hquote, hslash⟩ := escapeChar_cases c
    · simp [hc, pieces, Place.step, ih]
    · simp [hc, hquote, hslash, pieces, Place.step, ih]

theorem tokens_textLiteral (value : String) :
    tokens (textLiteral value) = .ok [textLiteral value] := by
  refine tokens_eq_ok_iff.mpr ⟨(textLiteral value).toList, [], ?_, ?_⟩
  · rw [toList_textLiteral]
    refine pieces_cons_eq_ok_iff.mpr (.inr ⟨by decide, _, _, ?_, pieces_escaped value.toList, rfl⟩)
    rfl
  · rw [List.filter_cons_of_pos (by simp [toList_textLiteral])]
    simp

theorem isReadable_textLiteral (value : String) : IsReadable (textLiteral value) :=
  ⟨[textLiteral value], tokens_textLiteral value, _, [], rfl, nofun⟩

/-! ### Reading a row back -/

/-- Whether a column is what a row says. -/
structure Tells (row : Row) (column : Column) : Prop where
  name : field? row "Field" = some column.name
  type : field? row "Type" = some column.type
  nullable : column.nullable = true ↔
    (∃ word, field? row "Null" = some word ∧ Text.sameLetters word "yes" = true) ∧
      field? row "Key" ≠ some "PRI"
  autoIncrement : column.autoIncrement = Text.occursIn "auto_increment" (extraOf row)
  visible : column.visible = !Text.occursIn "invisible" (extraOf row)
  kind : column.keyKind? = keyOfField? (field? row "Key")
  defaultValue : column.defaultValue = (writtenDefault row).map respaced

theorem keyKind?_columnOf (row : Row) (name type : String) :
    (columnOf row name type).keyKind? = keyOfField? (field? row "Key") :=
  keyKind?_keyConstraints rfl

theorem nullable_columnOf (row : Row) (name type : String) :
    (columnOf row name type).nullable = true ↔
    (∃ word, field? row "Null" = some word ∧ Text.sameLetters word "yes" = true) ∧
      field? row "Key" ≠ some "PRI" := by
  have hnullable : (columnOf row name type).nullable =
      ((field? row "Null").any (Text.sameLetters · "yes") &&
        decide (keyOfField? (field? row "Key") ≠ some .primary)) := rfl
  rw [hnullable, Bool.and_eq_true, decide_eq_true_eq, ne_eq, keyOfField_eq_primary_iff,
    Option.any_eq_true]

theorem tells_withParts {parts : List String} (hname : field? row "Field" = some name)
    (htype : field? row "Type" = some type)
    (hparts : ∀ value ∈ writtenDefault row, tokens value = .ok parts) :
    Tells row (withParts (columnOf row name type) parts).described := by
  refine ⟨hname, htype, nullable_columnOf row name type, ?_, ?_, ?_, ?_⟩
  · rw [Column.described, withParts, columnOf]
  · rw [Column.described, withParts, columnOf]
  · rw [Column.keyKind?_described, keyKind?_withParts, keyKind?_columnOf]
  · refine Option.map_congr fun value hv => ?_
    exact (respaced_of_tokens (hparts value hv)).symm

theorem exists_tells (hname : field? row "Field" = some name) (hne : name ≠ "")
    (htype : field? row "Type" = some type) (ht : IsType type)
    (h : ∀ value ∈ writtenDefault row, IsReadable value) :
    ∃ column, Column.ofDefinition (columnOf row name type).definition = .ok column ∧
      Tells row column := by
  have hparts : ∃ parts, ∀ value ∈ writtenDefault row, tokens value = .ok parts ∧
      IsDefault parts := by
    cases hd : writtenDefault row with
    | none => exact ⟨[], nofun⟩
    | some value =>
      obtain ⟨parts, hparts⟩ := h value hd
      exact ⟨parts, by simpa using hparts⟩
  obtain ⟨parts, hparts⟩ := hparts
  have hprimary : (columnOf row name type).keyKind? = some .primary →
      (columnOf row name type).nullable = false := by
    rw [keyKind?_columnOf, keyOfField_eq_primary_iff, ← Bool.not_eq_true, nullable_columnOf]
    exact fun hkey hnullable => hnullable.2 hkey
  refine ⟨_, Column.ofDefinition_definition_withParts hne ht hparts hprimary, ?_⟩
  exact tells_withParts hname htype fun value hv => (hparts value hv).1

/-- What is read as a default is a text that can be read as one. -/
theorem isReadable_of_respaced (h : IsValue (respaced value)) : IsReadable value := by
  obtain ⟨parts, hparts, -, hdefault⟩ := h
  cases htokens : tokens value with
  | error fault =>
    -- such a text stays as it is, and it would have been cut into those parts
    rw [respaced, htokens] at hparts
    cases htokens.symm.trans hparts
  | ok found =>
    have hfound : tokens (" ".intercalate found) = .ok found :=
      tokens_intercalate fun token ht => (tokens_of_mem htokens ht).2
    rw [respaced_of_tokens htokens] at hparts
    cases hfound.symm.trans hparts
    exact ⟨_, htokens, hdefault⟩

theorem isReadable_of_tells (h : Column.ofDefinition definition = .ok column)
    (htells : Tells row column) : ∀ value ∈ writtenDefault row, IsReadable value := by
  intro value hv
  have hdefault : column.defaultValue = some (respaced value) := by
    rw [htells.defaultValue, hv, Option.map_some]
  exact isReadable_of_respaced (Column.isValue_of_ofDefinition h hdefault)

theorem writtenDefault_of_quoted (htype : field? row "Type" = some type)
    (hquoted : quotedDefaultTypes.contains (baseType type) = true)
    (hvalue : field? row "Default" = some value)
    (hplain : isExpression value (extraOf row) = false) :
    writtenDefault row = some (textLiteral value) := by
  rw [writtenDefault, hvalue, htype, Option.map_some, Option.getD_some, defaultText,
    hquoted, hplain]
  rfl

theorem isReadable_of_quoted (htype : field? row "Type" = some type)
    (hquoted : quotedDefaultTypes.contains (baseType type) = true)
    (hvalue : ∀ value ∈ field? row "Default", isExpression value (extraOf row) = false) :
    ∀ value ∈ writtenDefault row, IsReadable value := by
  intro value hv
  obtain ⟨text, htext, -⟩ := Option.map_eq_some_iff.mp hv
  cases hv.symm.trans (writtenDefault_of_quoted htype hquoted htext (hvalue text htext))
  exact isReadable_textLiteral text

/-- The definition of a row of a description is read back as the column that the row is about
exactly when the default that it writes can be read, if there is one; for a type of text with a
default that is no expression this is always so. -/
theorem ofDefinition_describedDefinition (row : Row) (name type : String)
    (hname : field? row "Field" = some name) (hne : name ≠ "")
    (htype : field? row "Type" = some type)
    (hread : ∃ definition typed, Column.ofDefinition definition = .ok typed ∧ typed.type = type) :
    ∃ definition, describedDefinition row = .ok definition ∧
      ((∃ column, Column.ofDefinition definition = .ok column ∧ Tells row column) ↔
        ∀ value ∈ writtenDefault row, IsReadable value) ∧
      (quotedDefaultTypes.contains (baseType type) = true →
        (∀ value ∈ field? row "Default", isExpression value (extraOf row) = false) →
        ∃ column, Column.ofDefinition definition = .ok column ∧ Tells row column) := by
  obtain ⟨definition, typed, htyped, rfl⟩ := hread
  have ht := Column.isType_of_ofDefinition htyped
  refine ⟨(columnOf row name typed.type).definition, ?_, ?_, ?_⟩
  · rw [describedDefinition, describedColumn_eq hname htype]
    rfl
  · constructor
    · rintro ⟨column, h, htells⟩
      exact isReadable_of_tells h htells
    · exact exists_tells hname hne htype ht
  · intro hquoted hvalue
    exact exists_tells hname hne htype ht (isReadable_of_quoted htype hquoted hvalue)

/-- A name with a blank and a default with a quote and a word of the grammar. -/
theorem ofDefinition_describedDefinition_quoted :
    let row : Row :=
      ⟨[("field", .text "to ken"), ("Type", .text "varchar(9)"), ("Null", .text "Yes"),
        ("Key", .text "PRI"), ("Default", .text "it's not"), ("Extra", .text "INVISIBLE")]⟩
    field? row "Field" = some "to ken" ∧ "to ken" ≠ "" ∧ field? row "Type" = some "varchar(9)" ∧
      (∃ definition typed, Column.ofDefinition definition = .ok typed ∧ typed.type = "varchar(9)") ∧
      ∃ definition, describedDefinition row = .ok definition ∧
        ((∃ column, Column.ofDefinition definition = .ok column ∧ Tells row column) ↔
          ∀ value ∈ writtenDefault row, IsReadable value) ∧
        (quotedDefaultTypes.contains (baseType "varchar(9)") = true →
          (∀ value ∈ field? row "Default", isExpression value (extraOf row) = false) →
          ∃ column, Column.ofDefinition definition = .ok column ∧ Tells row column) := by
  intro row
  have hname : field? row "Field" = some "to ken" := by decide +kernel
  have htype : field? row "Type" = some "varchar(9)" := by decide +kernel
  have hread : Column.ofDefinition "x varchar(9)" = .ok { name := "x", type := "varchar(9)" } := by
    decide +kernel
  exact ⟨hname, by decide, htype, ⟨_, _, hread, rfl⟩,
    ofDefinition_describedDefinition row _ _ hname (by decide) htype ⟨_, _, hread, rfl⟩⟩

/-- An empty default of a type of bytes is written as nothing: the definition ends early, or the
clause after it is taken for the default. -/
theorem not_ofDefinition_describedDefinition :
    let row (key : String) : Row :=
      ⟨[("Field", .text "token"), ("Type", .text "varbinary(4)"), ("Null", .text "YES"),
        ("Key", .text key), ("Default", .text ""), ("Extra", .text "")]⟩
    (∃ typed, Column.ofDefinition "token varbinary(4)" = .ok typed ∧ typed.type = "varbinary(4)") ∧
    describedDefinition (row "") = .ok "token varbinary(4) null default " ∧
      (∀ column, Column.ofDefinition "token varbinary(4) null default " ≠ .ok column) ∧
    describedDefinition (row "UNI") = .ok "token varbinary(4) null default  unique" ∧
      ∃ column, Column.ofDefinition "token varbinary(4) null default  unique" = .ok column ∧
        column.keyKind? ≠ some .unique ∧ column.defaultValue = some "unique" := by
  intro row
  have htype : Column.ofDefinition "token varbinary(4)" =
      .ok { name := "token", type := "varbinary(4)" } := by
    decide +kernel
  have herror : Column.ofDefinition "token varbinary(4) null default " =
      .error (.definition (.missingDefault "token varbinary(4) null default ")) := by
    decide +kernel
  have hkey : Column.ofDefinition "token varbinary(4) null default  unique" =
      .ok { name := "token", type := "varbinary(4)", defaultValue := some "unique" } := by
    decide +kernel
  refine ⟨⟨_, htype, rfl⟩, by decide +kernel, fun column h => ?_, by decide +kernel, _, hkey,
    by decide, rfl⟩
  cases herror.symm.trans h

end SchemaQuery.MySql
