import SchemaQuery.Proofs.MySql.Description

/-! Texts as the engine reads them.  A literal is read with the engine's rules, which know more ways
to write a character than the literals of statements use.  A default of a type of text stays one and
the same literal however often its column is written as a definition and read again. -/

namespace SchemaQuery.MySql

variable {rest : List Char} {definition : String} {column : Column}

/-! ### Reading literals -/

/-- What the engine reads for a backslash and a character.  Before a mark of a pattern the backslash
stays; before a character without a meaning of its own it is dropped. -/
def unescaped : Char → List Char
  | '0' => ['\x00']
  | 'b' => ['\x08']
  | 'n' => ['\n']
  | 'r' => ['\r']
  | 't' => ['\t']
  | 'Z' => ['\x1a']
  | '%' => ['\\', '%']
  | '_' => ['\\', '_']
  | c => [c]

/-- The text up to the mark that closes a literal, and what follows it. -/
def readText? : List Char → Option (List Char × List Char)
  | [] => none
  | '\'' :: '\'' :: rest => (readText? rest).map fun (text, left) => ('\'' :: text, left)
  | '\'' :: rest => some ([], rest)
  | ['\\'] => none
  | '\\' :: c :: rest => (readText? rest).map fun (text, left) => (unescaped c ++ text, left)
  | c :: rest => (readText? rest).map fun (text, left) => (c :: text, left)

/-- The text that a literal stands for, when it is one from its first character to its last. -/
def textOf? (literal : String) : Option String :=
  match literal.toList with
  | '\'' :: rest =>
    match readText? rest with
    | some (text, []) => some (String.ofList text)
    | _ => none
  | _ => none

theorem readText?_cons {c : Char} (hquote : c ≠ '\'') (hslash : c ≠ '\\') :
    readText? (c :: rest) = (readText? rest).map fun (text, left) => (c :: text, left) := by
  rw [readText?]
  -- every other rule is for a quote or a backslash
  all_goals simp [hquote, hslash]

theorem readText?_escapeChar (c : Char) :
    readText? (escapeChar c ++ rest) = (readText? rest).map fun (text, left) =>
      (c :: text, left) := by
  unfold escapeChar
  split
  iterate 7 rfl
  next hslash hquote _ _ _ _ _ => exact readText?_cons hquote hslash

/-- What is escaped is read as it was before, and the reading goes on behind it. -/
theorem readText?_append (text rest : List Char) : readText? (text.flatMap escapeChar ++ rest) =
    (readText? rest).map fun (more, left) => (text ++ more, left) := by
  induction text with
  | nil => simp
  | cons c text ih =>
    rw [List.flatMap_cons, List.append_assoc, readText?_escapeChar, ih, Option.map_map]
    rfl

theorem readText?_mark (h : rest.head? ≠ some '\'') :
    readText? ('\'' :: rest) = some ([], rest) := by
  cases rest with
  | nil => rfl
  | cons c rest =>
    have hc : c ≠ '\'' := by simpa using h
    simp [readText?, hc]

/-- Two marks behind a text are one mark in it, and the reading does not end there. -/
theorem readText?_escape_marks (text rest : List Char) :
    readText? (text.flatMap escapeChar ++ '\'' :: '\'' :: rest) ≠ some (text, '\'' :: rest) := by
  rw [readText?_append, readText?]
  cases readText? rest with
  | none => simp
  | some found => simp

/-- The mark that closes a literal is the first one without a backslash, where no other mark comes
at once. -/
theorem readText?_escape_iff {text rest : List Char} :
    readText? (text.flatMap escapeChar ++ '\'' :: rest) = some (text, rest) ↔
      rest.head? ≠ some '\'' := by
  constructor
  · intro h hmark
    obtain ⟨more, rfl⟩ := List.head?_eq_some_iff.mp hmark
    exact readText?_escape_marks text more h
  · intro h
    rw [readText?_append, readText?_mark h]
    simp

theorem textOf?_textLiteral (value : String) : textOf? (textLiteral value) = some value := by
  have hread : readText? (value.toList.flatMap escapeChar ++ ['\'']) = some (value.toList, []) :=
    readText?_escape_iff.mpr (by simp)
  rw [textOf?, toList_textLiteral]
  simp [hread]

/-- The text of a literal that stands in front, and what is left behind the literal. -/
def readLiteral? : List Char → Option (List Char × List Char)
  | '\'' :: rest => readText? rest
  | _ => none

theorem readLiteral?_textLiteral (text rest : String) :
    readLiteral? (textLiteral text ++ rest).toList =
      readText? (text.toList.flatMap escapeChar ++ '\'' :: rest.toList) := by
  rw [String.toList_append, toList_textLiteral]
  simp [readLiteral?]

/-- A literal of a text says itself where it ends.  Whatever follows it, just the literal is read
and stands for its text, unless its last mark is followed by another one.  So no two texts are
escaped alike. -/
theorem literal_text_delimited :
    (∀ text rest : String, readLiteral? (literal (.text text) ++ rest).toList =
      some (text.toList, rest.toList) ↔ rest.toList.head? ≠ some '\'') ∧
      Function.Injective escape := by
  have hdelimited (text rest : String) : readLiteral? (literal (.text text) ++ rest).toList =
      some (text.toList, rest.toList) ↔ rest.toList.head? ≠ some '\'' := by
    rw [literal, readLiteral?_textLiteral, readText?_escape_iff]
  refine ⟨hdelimited, fun a b hescape => ?_⟩
  have hread (text : String) :
      readLiteral? (literal (.text text) ++ "").toList = some (text.toList, []) :=
    (hdelimited text "").mpr (by simp)
  have hliteral : literal (.text a) = literal (.text b) := by
    rw [literal, literal, textLiteral, textLiteral, hescape]
  have hsame : some (a.toList, []) = some (b.toList, ([] : List Char)) := by
    rw [← hread a, hliteral, hread b]
  exact String.toList_inj.mp (congrArg Prod.fst (Option.some.inj hsame))

/-! ### Defaults that are read again -/

/-- The column after a number of times that it is written as a definition and read again. -/
def reread (column : Column) : Nat → Except Error Column
  | 0 => .ok column
  | n + 1 => reread column n >>= fun again => Column.ofDefinition again.definition

theorem reread_of_ofDefinition (h : Column.ofDefinition definition = .ok column) (n : Nat) :
    reread column n = .ok column := by
  obtain ⟨hdefinable, hdescribed⟩ := Column.described_of_ofDefinition h
  induction n with
  | zero => rfl
  | succ n ih => rw [reread, ih, ok_bind, Column.ofDefinition_definition hdefinable, hdescribed]

theorem respaced_textLiteral (value : String) :
    respaced (textLiteral value) = textLiteral value := by
  rw [respaced_of_tokens (tokens_textLiteral value), String.intercalate_singleton]

/-- A default of a type of text that is no expression comes through the description of its table,
and through any number of definitions after it, as a literal of that text. -/
theorem textDefault_kept (row : Row) (name type value : String)
    (hname : field? row "Field" = some name) (hne : name ≠ "")
    (htype : field? row "Type" = some type)
    (hread : ∃ definition typed, Column.ofDefinition definition = .ok typed ∧ typed.type = type)
    (hquoted : quotedDefaultTypes.contains (baseType type) = true)
    (hvalue : field? row "Default" = some value)
    (hplain : isExpression value (extraOf row) = false) :
    ∃ definition column, describedDefinition row = .ok definition ∧
      Column.ofDefinition definition = .ok column ∧
      ∀ n, ∃ again literal, reread column n = .ok again ∧ again.defaultValue = some literal ∧
        textOf? literal = some value := by
  obtain ⟨_, typed, htyped, rfl⟩ := hread
  have hwritten := writtenDefault_of_quoted htype hquoted hvalue hplain
  have hreadable : ∀ text ∈ writtenDefault row, IsReadable text := by
    rw [hwritten]
    rintro _ ⟨⟩
    exact isReadable_textLiteral value
  obtain ⟨column, h, htells⟩ :=
    exists_tells hname hne htype (Column.isType_of_ofDefinition htyped) hreadable
  have hdefault : column.defaultValue = some (textLiteral value) := by
    rw [htells.defaultValue, hwritten, Option.map_some, respaced_textLiteral]
  refine ⟨(columnOf row name typed.type).definition, column, ?_, h, fun n => ?_⟩
  · rw [describedDefinition, describedColumn_eq hname htype]
    rfl
  · exact ⟨column, textLiteral value, reread_of_ofDefinition h n, hdefault,
      textOf?_textLiteral value⟩

/-- A default with quotes, backslashes, a line break, a bracket that is not closed and words of the
grammar. -/
theorem textDefault_kept_marks :
    let value := "it's \"5\\\\%\", (not\nnull; default\x00"
    let row : Row :=
      ⟨[("Field", .text "to ken"), ("Type", .text "VarChar(40)"), ("Null", .text "NO"),
        ("Key", .text "UNI"), ("Default", .text value), ("Extra", .text "INVISIBLE")]⟩
    field? row "Field" = some "to ken" ∧ "to ken" ≠ "" ∧ field? row "Type" = some "VarChar(40)" ∧
      (∃ definition typed, Column.ofDefinition definition = .ok typed ∧
        typed.type = "VarChar(40)") ∧
      quotedDefaultTypes.contains (baseType "VarChar(40)") = true ∧
      field? row "Default" = some value ∧
      isExpression value (extraOf row) = false ∧
      ∃ definition column, describedDefinition row = .ok definition ∧
        Column.ofDefinition definition = .ok column ∧
        ∀ n, ∃ again literal, reread column n = .ok again ∧ again.defaultValue = some literal ∧
          textOf? literal = some value := by
  intro value row
  have hname : field? row "Field" = some "to ken" := by decide +kernel
  have htype : field? row "Type" = some "VarChar(40)" := by decide +kernel
  have hread : Column.ofDefinition "x VarChar(40)" =
      .ok { name := "x", type := "VarChar(40)" } := by
    decide +kernel
  have hquoted : quotedDefaultTypes.contains (baseType "VarChar(40)") = true := by decide +kernel
  have hvalue : field? row "Default" = some value := by decide +kernel
  have hplain : isExpression value (extraOf row) = false := by decide +kernel
  exact ⟨hname, by decide, htype, ⟨_, _, hread, rfl⟩, hquoted, hvalue, hplain,
    textDefault_kept row _ _ value hname (by decide) htype ⟨_, _, hread, rfl⟩ hquoted hvalue hplain⟩

end SchemaQuery.MySql
