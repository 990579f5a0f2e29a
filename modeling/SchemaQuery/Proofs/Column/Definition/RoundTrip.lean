import SchemaQuery.Proofs.Column.Definition.Clause
import SchemaQuery.Proofs.Column.Definition.Token

/-! Definitions round-trip.  A printed definition is cut into the tokens of its name, its type and
its clauses, and these give the column again, with its key as the only constraint.  A column that
was read from a definition has nothing else to lose. -/

namespace SchemaQuery.Definition

variable {column : Column} {definition name type value : String} {cs : List Clause}

/-! ### What types and defaults look like -/

/-- Whether a text is what stands for a type: a token, and the words that belong to it. -/
def IsType (type : String) : Prop :=
  ∃ base suffixes, tokens type = .ok (base :: suffixes) ∧
    type = " ".intercalate (base :: suffixes) ∧ ∀ token ∈ suffixes, isTypeSuffix token = true

/-- Whether a text is what stands for a default value. -/
def IsValue (value : String) : Prop :=
  ∃ parts, tokens value = .ok parts ∧ value = " ".intercalate parts ∧ IsDefault parts

theorem ofTokens_eq_ok_iff {all : List String} : ofTokens definition all = .ok column ↔
    ∃ first base rest cs, all = first :: base :: rest ∧ unquote '\x60' first ≠ "" ∧
      clauses definition (rest.dropWhile isTypeSuffix) = .ok cs ∧
      column = build (unquote '\x60' first)
        (" ".intercalate (base :: rest.takeWhile isTypeSuffix)) cs := by
  constructor
  · intro h
    cases all with
    | nil => cases h
    | cons first rest =>
      simp only [ofTokens] at h
      split at h
      case isTrue => cases h
      case isFalse hname =>
        cases rest with
        | nil => cases h
        | cons base rest =>
          obtain ⟨cs, hcs, rfl⟩ := map_eq_ok_iff.mp h
          exact ⟨first, base, rest, cs, rfl, by simpa [String.isEmpty_iff] using hname, hcs, rfl⟩
  · rintro ⟨first, base, rest, cs, rfl, hname, hcs, rfl⟩
    unfold ofTokens
    simp [String.isEmpty_iff, hname, hcs]

/-- A column that a definition gives is built from a type, and from clauses whose defaults are
values. -/
theorem parse_eq_ok (h : parse definition = .ok column) :
    ∃ name type cs, column = build name type cs ∧ name ≠ "" ∧ IsType type ∧
    ∀ value, .default value ∈ cs → IsValue value := by
  rw [parse, bind_eq_ok_iff] at h
  obtain ⟨all, hall, h⟩ := h
  obtain ⟨first, base, rest, cs, rfl, hname, hcs, rfl⟩ := ofTokens_eq_ok_iff.mp h
  have hone : ∀ token ∈ base :: rest, tokens token = .ok [token] := fun token ht =>
    (tokens_of_mem hall (List.mem_cons_of_mem _ ht)).2
  have htake : base :: rest.takeWhile isTypeSuffix ⊆ base :: rest :=
    List.cons_subset_cons _ (List.takeWhile_subset _)
  have hdrop : rest.dropWhile isTypeSuffix ⊆ base :: rest :=
    List.subset_cons_of_subset _ (List.dropWhile_suffix _).subset
  refine ⟨_, _, cs, rfl, hname, ⟨base, _, ?_, rfl, fun token ht => List.mem_takeWhile_imp ht⟩, ?_⟩
  · exact tokens_intercalate fun token ht => hone token (htake ht)
  · intro value hv
    obtain ⟨parts, hparts, hsub, rfl⟩ := default_of_clauses hcs hv
    exact ⟨parts, tokens_intercalate fun token ht => hone token (hdrop (hsub ht)), rfl, hparts⟩

/-! ### What clauses make of a column -/

theorem foldl_apply_kept (cs : List Clause) (column : Column) :
    (cs.foldl apply column).owner = column.owner ∧ (cs.foldl apply column).name = column.name ∧
      (cs.foldl apply column).type = column.type ∧
      (cs.foldl apply column).constraints = column.constraints := by
  induction cs generalizing column with
  | nil => exact ⟨rfl, rfl, rfl, rfl⟩
  | cons c rest ih =>
    have hc : (apply column c).owner = column.owner ∧ (apply column c).name = column.name ∧
        (apply column c).type = column.type ∧
        (apply column c).constraints = column.constraints := by
      cases c <;> exact ⟨rfl, rfl, rfl, rfl⟩
    rw [List.foldl_cons, ← hc.1, ← hc.2.1, ← hc.2.2.1, ← hc.2.2.2]
    exact ih (apply column c)

theorem defaultValue_of_foldl_apply (h : (cs.foldl apply column).defaultValue = some value) :
    column.defaultValue = some value ∨ .default value ∈ cs := by
  induction cs generalizing column with
  | nil => exact .inl h
  | cons c rest ih =>
    obtain hc | hrest := ih h
    · cases c with
      | default found =>
        cases hc
        exact .inr List.mem_cons_self
      | _ => exact .inl hc
    · exact .inr (List.mem_cons_of_mem _ hrest)

/-- The constraints of a column that is read from a definition: its key, if it has one. -/
def keyConstraints (name : String) (kind : Option KeyKind) : List Constraint :=
  (kind.map fun kind => Constraint.keyed kind ⟨none, name⟩ none).toList

theorem keyKind?_keyConstraints {kind : Option KeyKind}
    (h : column.constraints = keyConstraints name kind) : column.keyKind? = kind := by
  rw [Column.keyKind?, h]
  cases kind with
  | none => rfl
  | some kind => cases kind <;> rfl

theorem withKey_eq {kind : KeyKind} (ho : column.owner = none) (h : column.constraints = []) :
    column.withKey kind =
    { column with
      nullable := column.nullable && decide (kind ≠ .primary)
      constraints := keyConstraints column.name kind } := by
  obtain ⟨owner, name, type, nullable, defaultValue, visible, autoIncrement, comment,
    constraints⟩ := column
  cases ho
  cases h
  cases kind <;> cases nullable <;> rfl

theorem build_eq (name type : String) (cs : List Clause) : build name type cs =
    { cs.foldl apply { name, type } with
      nullable := (cs.foldl apply { name, type }).nullable && decide (keyOf cs ≠ some .primary)
      constraints := keyConstraints name (keyOf cs) } := by
  obtain ⟨howner, hname, -, hconstraints⟩ := foldl_apply_kept cs { name, type }
  rw [build]
  cases keyOf cs with
  | none =>
    generalize cs.foldl apply { name, type } = column at *
    obtain ⟨owner, name', type', nullable, defaultValue, visible, autoIncrement, comment,
      constraints⟩ := column
    cases hconstraints
    simp [keyConstraints]
  | some kind => simp [withKey_eq howner hconstraints, hname]

/-! ### The words of a printed definition -/

/-- The clauses that are printed for a column. -/
def printedClauses (column : Column) : List Clause :=
  .nullable column.nullable :: column.defaultValue.toList.map .default
    ++ (if !column.visible then [.visible false] else [])
    ++ (if column.autoIncrement then [.increment] else [])
    ++ column.keyKind?.toList.map .key
    ++ (if column.comment.isEmpty then [] else [.comment column.comment])

/-- The words of the clause of a key. -/
def keyWords : Option KeyKind → List String
  | some .unique => ["unique"]
  | some .primary => ["primary", "key"]
  | some .index => ["key"]
  | none => []

/-- The words of the default clause; `parts` are the tokens of the value, if there is one. -/
def defaultWords (value : Option String) (parts : List String) : List String :=
  if value.isSome then "default" :: parts else []

/-- The words of the comment clause. -/
def commentWords (comment : String) : List String :=
  if comment.isEmpty then [] else ["comment", quote '\'' comment]

/-- The words after the default, each list opening a clause. -/
def lastWords (column : Column) : List String :=
  (if !column.visible then ["invisible"] else [])
    ++ ((if column.autoIncrement then ["auto_increment"] else [])
      ++ (keyWords column.keyKind? ++ commentWords column.comment))

/-- The words of all clauses; `parts` are the tokens of the default. -/
def printedWords (column : Column) (parts : List String) : List String :=
  (if column.nullable then ["null"] else ["not", "null"])
    ++ (defaultWords column.defaultValue parts ++ lastWords column)

theorem adds_keyClause (kind : Option KeyKind) : Adds (keyClause kind) (keyWords kind) := by
  cases kind with
  | none => exact adds_empty
  | some kind =>
    cases kind with
    | index => exact .inr ⟨"key", rfl, rfl⟩
    | unique => exact .inr ⟨"unique", rfl, rfl⟩
    | primary => exact .inr ⟨"primary key", rfl, rfl⟩

theorem print_eq (column : Column) : print column = nameToken column.name ++ " " ++ column.type
    ++ (if column.nullable then " null" else " not null")
    ++ column.defaultValue.elim "" (" default " ++ ·)
    ++ (if column.visible then "" else " invisible")
    ++ (if column.autoIncrement then " auto_increment" else "")
    ++ keyClause column.keyKind?
    ++ (if column.comment.isEmpty then "" else " comment " ++ quote '\'' column.comment) := by
  rw [print]
  cases column.defaultValue <;> rfl

/-- A printed definition has the tokens of its parts. -/
theorem tokens_print {types parts : List String} (ht : tokens column.type = .ok types)
    (hv : ∀ value ∈ column.defaultValue, tokens value = .ok parts) :
    tokens (print column) =
      .ok (nameToken column.name :: (types ++ printedWords column parts)) := by
  have hname : tokens (nameToken column.name ++ " " ++ column.type) =
      .ok (nameToken column.name :: types) :=
    tokens_append_blank tokens_nameToken ht
  have hnull : Adds (if column.nullable then " null" else " not null")
      (if column.nullable then ["null"] else ["not", "null"]) := by
    cases column.nullable
    · exact .inr ⟨"not null", rfl, rfl⟩
    · exact .inr ⟨"null", rfl, rfl⟩
  have hdefault : Adds (column.defaultValue.elim "" (" default " ++ ·))
      (defaultWords column.defaultValue parts) := by
    cases hd : column.defaultValue with
    | none => exact adds_empty
    | some value =>
      have hword : tokens "default" = .ok ["default"] := rfl
      refine .inr ⟨"default" ++ " " ++ value, ?_, tokens_append_blank hword (hv value hd)⟩
      rw [← String.append_assoc, ← String.append_assoc]
      rfl
  have hvisible : Adds (if column.visible then "" else " invisible")
      (if !column.visible then ["invisible"] else []) := by
    cases column.visible
    · exact .inr ⟨"invisible", rfl, rfl⟩
    · exact adds_empty
  have hincrement : Adds (if column.autoIncrement then " auto_increment" else "")
      (if column.autoIncrement then ["auto_increment"] else []) := by
    cases column.autoIncrement
    · exact adds_empty
    · exact .inr ⟨"auto_increment", rfl, rfl⟩
  have hcomment : Adds (if column.comment.isEmpty then ""
      else " comment " ++ quote '\'' column.comment) (commentWords column.comment) := by
    rw [commentWords]
    cases column.comment.isEmpty with
    | true => exact adds_empty
    | false =>
      have hword : tokens "comment" = .ok ["comment"] := rfl
      refine .inr ⟨"comment" ++ " " ++ quote '\'' column.comment, ?_,
        tokens_append_blank hword (tokens_quote rfl)⟩
      rw [← String.append_assoc, ← String.append_assoc]
      rfl
  have hflags :=
    tokens_append (tokens_append (tokens_append (tokens_append hname hnull) hdefault) hvisible)
    hincrement
  rw [print_eq, tokens_append (tokens_append hflags (adds_keyClause column.keyKind?)) hcomment]
  simp [printedWords, lastWords]

/-! ### Reading the words back -/

theorem clauses_nullWords (allowed : Bool) (rest : List String) :
    clauses definition ((if allowed then ["null"] else ["not", "null"]) ++ rest) =
      (clauses definition rest).map (.nullable allowed :: ·) := by
  cases allowed with
  | false => exact clauses_cons rfl
  | true => exact clauses_cons rfl

/-- A word that may be left out. -/
theorem clauses_optional {word : String} {c : Clause} (present : Bool) (rest : List String)
    (h : clause definition word rest = .ok (c, rest)) :
    clauses definition ((if present then [word] else []) ++ rest) =
      (clauses definition rest).map ((if present then [c] else []) ++ ·) := by
  cases present with
  | false => cases hr : clauses definition rest <;> exact hr
  | true => exact clauses_cons h

theorem clauses_defaultWords {parts rest : List String}
    (hv : ∀ value ∈ column.defaultValue, value = " ".intercalate parts ∧ IsDefault parts)
    (h : BeginsClause rest) : clauses definition (defaultWords column.defaultValue parts ++ rest) =
      (clauses definition rest).map (column.defaultValue.toList.map .default ++ ·) := by
  cases hd : column.defaultValue with
  | none => cases hr : clauses definition rest <;> exact hr
  | some value =>
    obtain ⟨rfl, hparts⟩ := hv value hd
    exact clauses_default rfl hparts h

/-- The word `key` after `unique` would be taken along, but no comment begins with it. -/
theorem clauses_keyWords (kind : Option KeyKind) (comment : String) :
    clauses definition (keyWords kind ++ commentWords comment) =
      (clauses definition (commentWords comment)).map (kind.toList.map .key ++ ·) := by
  have hafter : afterKey (commentWords comment) = commentWords comment := by
    rw [commentWords]
    cases comment.isEmpty <;> rfl
  cases kind with
  | none => cases h : clauses definition (commentWords comment) <;> exact h
  | some kind =>
    cases kind with
    | index => exact clauses_cons rfl
    | unique =>
      refine clauses_cons ?_
      change Except.ok (Clause.key .unique, afterKey (commentWords comment)) = _
      rw [hafter]
    | primary => exact clauses_cons rfl

theorem clauses_commentWords (comment : String) : clauses definition (commentWords comment) =
    .ok (if comment.isEmpty then [] else [.comment comment]) := by
  rw [commentWords]
  cases comment.isEmpty with
  | true => rw [if_pos rfl, clauses]; rfl
  | false =>
    have hc : clause definition "comment" [quote '\'' comment] = .ok (.comment comment, []) := by
      change Except.ok (Clause.comment (unquote '\'' (quote '\'' comment)), []) = _
      rw [unquote_quote (by decide)]
    simp only [Bool.false_eq_true, if_false, clauses_cons hc, clauses, map_ok]

theorem beginsClause_lastWords (column : Column) : BeginsClause (lastWords column) := by
  have hvisible : BeginsClause (if !column.visible then ["invisible"] else []) := by
    cases column.visible
    · exact beginsClause_cons rfl
    · exact beginsClause_nil
  have hincrement : BeginsClause (if column.autoIncrement then ["auto_increment"] else []) := by
    cases column.autoIncrement
    · exact beginsClause_nil
    · exact beginsClause_cons rfl
  have hkey : BeginsClause (keyWords column.keyKind?) := by
    cases column.keyKind? with
    | none => exact beginsClause_nil
    | some kind => cases kind <;> exact beginsClause_cons rfl
  have hcomment : BeginsClause (commentWords column.comment) := by
    rw [commentWords]
    cases column.comment.isEmpty
    · exact beginsClause_cons rfl
    · exact beginsClause_nil
  exact hvisible.append (hincrement.append (hkey.append hcomment))

/-- The printed words are read as the printed clauses. -/
theorem clauses_printedWords {parts : List String}
    (hv : ∀ value ∈ column.defaultValue, value = " ".intercalate parts ∧ IsDefault parts) :
    clauses definition (printedWords column parts) = .ok (printedClauses column) := by
  rw [printedWords, clauses_nullWords, clauses_defaultWords hv (beginsClause_lastWords column),
    lastWords, clauses_optional (!column.visible) _ rfl,
    clauses_optional column.autoIncrement _ rfl, clauses_keyWords, clauses_commentWords]
  simp [printedClauses]

theorem keyOf_printedClauses (column : Column) :
    keyOf (printedClauses column) = column.keyKind? := by
  rw [keyOf, printedClauses]
  cases column.defaultValue <;> cases column.visible <;> cases column.autoIncrement <;>
    cases column.keyKind? <;> cases column.comment.isEmpty <;> rfl

theorem foldl_apply_printedClauses (column : Column) :
    (printedClauses column).foldl apply { name := column.name, type := column.type } =
      { column with owner := none, constraints := [] } := by
  have hcomment : column.comment.isEmpty = true → column.comment = "" := String.isEmpty_iff.mp
  rw [printedClauses]
  generalize column.keyKind? = kind at *
  obtain ⟨owner, name, type, nullable, defaultValue, visible, autoIncrement, comment,
    constraints⟩ := column
  cases defaultValue <;> cases visible <;> cases autoIncrement <;> cases kind <;>
    cases he : comment.isEmpty <;> simp_all [apply]

/-- The column with the tokens of its default in place of the text. -/
def withParts (column : Column) (parts : List String) : Column :=
  { column with defaultValue := column.defaultValue.map fun _ => " ".intercalate parts }

theorem keyKind?_withParts {parts : List String} :
    (withParts column parts).keyKind? = column.keyKind? := rfl

theorem printedWords_withParts (column : Column) (parts : List String) :
    printedWords (withParts column parts) parts = printedWords column parts := by
  have hdefault : defaultWords (withParts column parts).defaultValue parts =
      defaultWords column.defaultValue parts := by
    rw [defaultWords, defaultWords, withParts, Option.isSome_map]
  have hlast : lastWords (withParts column parts) = lastWords column := rfl
  rw [printedWords, printedWords, hdefault, hlast]
  rfl

/-- A printed definition is read as the column that its name, its type and its printed clauses
build; the tokens of the default are put together again with one blank between them. -/
theorem parse_print_withParts {parts : List String} (hname : column.name ≠ "")
    (ht : IsType column.type)
    (hv : ∀ value ∈ column.defaultValue, tokens value = .ok parts ∧ IsDefault parts) :
    parse (print column) =
      .ok (build column.name column.type (printedClauses (withParts column parts))) := by
  obtain ⟨base, suffixes, htypes, htype, hsuffixes⟩ := ht
  have htokens := tokens_print htypes fun value hd => (hv value hd).1
  have hwords (definition : String) : clauses definition (printedWords column parts) =
      .ok (printedClauses (withParts column parts)) := by
    rw [← printedWords_withParts]
    refine clauses_printedWords fun value hd => ?_
    obtain ⟨old, hold, rfl⟩ := Option.map_eq_some_iff.mp hd
    exact ⟨rfl, (hv old hold).2⟩
  have hbegins : BeginsClause (printedWords column parts) := by
    rw [printedWords]
    cases column.nullable <;> exact beginsClause_cons rfl
  obtain ⟨htake, hdrop⟩ := isTypeSuffix_append hsuffixes hbegins
  rw [parse, htokens, ok_bind, List.cons_append]
  refine ofTokens_eq_ok_iff.mpr ⟨_, base, _, _, rfl, ?_, by rw [hdrop]; exact hwords _, ?_⟩
  · rwa [unquote_nameToken]
  · rw [unquote_nameToken, htake, ← htype]

/-- A default that is a value comes back as it was printed. -/
theorem parse_print (hname : column.name ≠ "") (ht : IsType column.type)
    (hv : ∀ value ∈ column.defaultValue, IsValue value) :
    parse (print column) = .ok (build column.name column.type (printedClauses column)) := by
  cases hd : column.defaultValue with
  | none =>
    have hsame : withParts column [] = column := by rw [withParts, hd, Option.map_none, ← hd]
    have hparse : parse (print column) =
        .ok (build column.name column.type (printedClauses (withParts column []))) :=
      parse_print_withParts hname ht (by simp [hd])
    rwa [hsame] at hparse
  | some value =>
    obtain ⟨parts, htokens, hvalue, hparts⟩ := hv value hd
    have hsame : withParts column parts = column := by
      rw [withParts, hd, Option.map_some, ← hvalue, ← hd]
    have hparse := parse_print_withParts hname ht fun other hother => by
      cases hd.symm.trans hother
      exact ⟨htokens, hparts⟩
    rwa [hsame] at hparse

end SchemaQuery.Definition

namespace SchemaQuery.Column

variable {column : Column} {definition : String}

open Definition

theorem ofDefinition_eq_ok_iff :
    ofDefinition definition = .ok column ↔ parse definition = .ok column := by
  rw [ofDefinition]
  cases parse definition <;> simp [Except.mapError]

/-- Whether a definition can say what the column is: it has a name, its type and its default are of
the form that is read from definitions, and a primary key leaves no cell empty. -/
structure IsDefinable (column : Column) : Prop where
  name : column.name ≠ ""
  type : ∃ definition typed, ofDefinition definition = .ok typed ∧ typed.type = column.type
  defaultValue : column.defaultValue = none ∨
    ∃ definition valued, ofDefinition definition = .ok valued ∧
    valued.defaultValue = column.defaultValue
  primary : column.keyKind? = some .primary → column.nullable = false

/-- What the definition of a column says of it: all but its owner, its foreign keys and the name and
cache of its key. -/
def described (column : Column) : Column :=
  { column with owner := none, constraints := keyConstraints column.name column.keyKind? }

theorem keyKind?_described : column.described.keyKind? = column.keyKind? :=
  keyKind?_keyConstraints rfl

theorem isType_of_ofDefinition (h : ofDefinition definition = .ok column) : IsType column.type := by
  obtain ⟨name, type, cs, rfl, -, htype, -⟩ := parse_eq_ok (ofDefinition_eq_ok_iff.mp h)
  rw [build_eq]
  simpa [(foldl_apply_kept cs _).2.2.1] using htype

theorem isValue_of_ofDefinition {value : String} (h : ofDefinition definition = .ok column)
    (hv : column.defaultValue = some value) : IsValue value := by
  obtain ⟨name, type, cs, rfl, -, -, hvalues⟩ := parse_eq_ok (ofDefinition_eq_ok_iff.mp h)
  rw [build_eq] at hv
  obtain h | h := defaultValue_of_foldl_apply hv
  · cases h
  · exact hvalues value h

/-- A column that is read from a definition is all that the definition says. -/
theorem described_of_ofDefinition (h : ofDefinition definition = .ok column) :
    column.IsDefinable ∧ column.described = column := by
  obtain ⟨name, type, cs, hbuild, hname, -, -⟩ := parse_eq_ok (ofDefinition_eq_ok_iff.mp h)
  obtain ⟨howner, hkept, -, -⟩ := foldl_apply_kept cs { name, type }
  rw [build_eq] at hbuild
  have hconstraints : column.constraints = keyConstraints name (keyOf cs) := by rw [hbuild]
  have hkind : column.keyKind? = keyOf cs := keyKind?_keyConstraints hconstraints
  have hcolumn : column.name = name := by rw [hbuild, hkept]
  constructor
  · refine ⟨by rwa [hcolumn], ⟨definition, column, h, rfl⟩, .inr ⟨definition, column, h, rfl⟩,
      fun hp => ?_⟩
    rw [hkind] at hp
    rw [hbuild]
    simp [hp]
  · have hnone : column.owner = none := by rw [hbuild, howner]
    rw [described, hkind, hcolumn, ← hconstraints, ← hnone, ← hcolumn]

/-- The clauses of a column build what its definition says of it. -/
theorem build_printedClauses (h : column.keyKind? = some .primary → column.nullable = false) :
    build column.name column.type (printedClauses column) = column.described := by
  rw [build_eq, foldl_apply_printedClauses, keyOf_printedClauses, described]
  cases hn : column.nullable with
  | false => simp
  | true =>
    have hp : column.keyKind? ≠ some .primary := fun hp => by simp [h hp] at hn
    simp [hp]

theorem ofDefinition_definition_withParts {parts : List String} (hname : column.name ≠ "")
    (ht : IsType column.type)
    (hv : ∀ value ∈ column.defaultValue, tokens value = .ok parts ∧ IsDefault parts)
    (hp : column.keyKind? = some .primary → column.nullable = false) :
    ofDefinition column.definition = .ok (withParts column parts).described := by
  rw [ofDefinition_eq_ok_iff, Column.definition, parse_print_withParts hname ht hv]
  have hbuild := @build_printedClauses (withParts column parts) hp
  exact congrArg Except.ok hbuild

theorem ofDefinition_definition (h : column.IsDefinable) :
    ofDefinition column.definition = .ok column.described := by
  obtain ⟨_, typed, htyped, htype⟩ := h.type
  have hv : ∀ value ∈ column.defaultValue, IsValue value := by
    intro value hd
    obtain hnone | ⟨_, valued, hvalued, hvalue⟩ := h.defaultValue
    · rw [hnone] at hd
      cases hd
    · exact isValue_of_ofDefinition hvalued (hvalue.trans hd)
  rw [ofDefinition_eq_ok_iff, Column.definition,
    parse_print h.name (htype ▸ isType_of_ofDefinition htyped) hv, build_printedClauses h.primary]

/-- Definitions round-trip.  A column that a definition can describe is read back with the same
name, type, flags, default, comment and kind of key; one that was read from a definition is read
back whole. -/
theorem definition_roundTrip :
    (∀ column : Column, column.IsDefinable → ∃ again, ofDefinition column.definition = .ok again ∧
      again.name = column.name ∧ again.type = column.type ∧ again.nullable = column.nullable ∧
      again.defaultValue = column.defaultValue ∧ again.visible = column.visible ∧
      again.autoIncrement = column.autoIncrement ∧ again.comment = column.comment ∧
      again.keyKind? = column.keyKind?) ∧
    ∀ (definition : String) (column : Column), ofDefinition definition = .ok column →
      ofDefinition column.definition = .ok column := by
  constructor
  · intro column h
    exact ⟨column.described, ofDefinition_definition h, rfl, rfl, rfl, rfl, rfl, rfl, rfl,
      keyKind?_described⟩
  · intro definition column h
    obtain ⟨hdefinable, hdescribed⟩ := described_of_ofDefinition h
    rw [ofDefinition_definition hdefinable, hdescribed]

/-- A name with a blank and a mark, a type and a default of several words, and a comment with a
quote. -/
theorem definition_roundTrip_quoted :
    let column : Column :=
      { owner := some "t", name := "a \x60b", type := "int(10) unsigned", nullable := false,
        defaultValue := some "null + 'x y'", visible := false, comment := "it's \\ here",
        constraints := [.foreign ⟨"f", ⟨some "t", "a"⟩, ⟨some "u", "id"⟩, none⟩,
          .primary ⟨"p", ⟨some "t", "a"⟩, none⟩] }
    column.IsDefinable ∧ ∃ again, ofDefinition column.definition = .ok again ∧
      again.name = column.name ∧ again.type = column.type ∧ again.nullable = column.nullable ∧
      again.defaultValue = column.defaultValue ∧ again.visible = column.visible ∧
      again.autoIncrement = column.autoIncrement ∧ again.comment = column.comment ∧
      again.keyKind? = column.keyKind? := by
  intro column
  have htype : ofDefinition "x int(10) unsigned" =
      .ok { name := "x", type := "int(10) unsigned" } := by
    decide +kernel
  have hdefault : ofDefinition "x int default null + 'x y'" =
      .ok { name := "x", type := "int", defaultValue := some "null + 'x y'" } := by
    decide +kernel
  have h : column.IsDefinable :=
    ⟨by decide, ⟨_, _, htype, rfl⟩, .inr ⟨_, _, hdefault, rfl⟩, fun _ => rfl⟩
  exact ⟨h, definition_roundTrip.1 column h⟩

end SchemaQuery.Column
