import SchemaQuery.Proofs.Column.Definition.List
import SchemaQuery.Proofs.Column.Definition.RoundTrip
import SchemaQuery.Proofs.Request.Statement

/-! The definition of a new column, and of a column in its new form.  The statement holds it as it
was given.  The words of the grammar have no comma, so that a comma outside quotes and brackets is
one of the name, of the type, of a default or of a comment; without such a comma the definition is
the only one of its list. -/

namespace SchemaQuery.Definition

variable {place next : Place} {text first : List Char} {more : List (List Char)} {c : Char}
variable {definition word token : String} {all rest left : List String}

/-! ### Characters outside quotes and brackets -/

/-- The characters that a reading meets outside quotes and brackets.  It stops at a bracket that
closes nothing. -/
def topLevel (place : Place) : List Char → List Char
  | [] => []
  | c :: rest =>
    match place.step c with
    | none => []
    | some next => (if place = .outside 0 then [c] else []) ++ topLevel next rest

/-- A comma that separates two definitions of a list. -/
def HasComma (text : String) : Prop := ',' ∈ topLevel (.outside 0) text.toList

instance (text : String) : Decidable (HasComma text) :=
  inferInstanceAs (Decidable (',' ∈ topLevel (.outside 0) text.toList))

theorem topLevel_cons (h : place.step c = some next) :
    topLevel place (c :: text) = (if place = .outside 0 then [c] else []) ++
      topLevel next text := by
  rw [topLevel, h]

theorem topLevel_subset : topLevel place text ⊆ text := by
  induction text generalizing place with
  | nil => exact List.Subset.refl []
  | cons c rest ih =>
    cases hstep : place.step c with
    | none => simp [topLevel, hstep]
    | some next =>
      rw [topLevel_cons hstep]
      refine List.append_subset.mpr ⟨?_, List.subset_cons_of_subset c ih⟩
      split <;> simp

/-- A piece between blanks is read as it is in the whole text. -/
theorem mem_topLevel_iff (hc : Text.isBlank c = false)
    (h : pieces Text.isBlank place text = .ok (first, more)) :
    c ∈ topLevel place text ↔ c ∈ topLevel place first ∨ ∃ piece ∈ more, c ∈ topLevel
      (.outside 0) piece := by
  induction text generalizing place first more with
  | nil =>
    obtain ⟨-, rfl, rfl⟩ := pieces_nil_eq_ok_iff.mp h
    simp
  | cons d rest ih =>
    obtain ⟨rfl, hd, rfl, piece, others, hrest, rfl⟩ | ⟨-, next, piece, hstep, hrest, rfl⟩ :=
      pieces_cons_eq_ok_iff.mp h
    · have hne : c ≠ d := by
        rintro rfl
        rw [hd] at hc
        cases hc
      rw [topLevel_cons (step_of_isBlank hd 0), if_pos rfl, List.singleton_append, List.mem_cons,
        or_iff_right hne, ih hrest]
      simp [topLevel]
    · rw [topLevel_cons hstep, topLevel_cons hstep, List.mem_append, List.mem_append,
        ih hrest, or_assoc]

theorem hasComma_iff_of_tokens (h : tokens definition = .ok all) :
    HasComma definition ↔ ∃ token ∈ all, HasComma token := by
  obtain ⟨first, more, hp, rfl⟩ := tokens_eq_ok_iff.mp h
  have hpieces : ∀ piece, ',' ∈ topLevel (.outside 0) piece → piece ≠ [] := by
    rintro _ hmem rfl
    cases hmem
  rw [HasComma, mem_topLevel_iff (by decide) hp]
  constructor
  · intro hfound
    obtain ⟨piece, hpiece, hmem⟩ : ∃ piece ∈ first :: more, ',' ∈ topLevel (.outside 0) piece := by
      simpa using hfound
    refine ⟨String.ofList piece,
      List.mem_map.mpr ⟨piece, List.mem_filter.mpr ⟨hpiece, ?_⟩, rfl⟩, ?_⟩
    · simpa using hpieces piece hmem
    · rwa [HasComma, String.toList_ofList]
  · rintro ⟨token, htoken, hmem⟩
    obtain ⟨piece, hpiece, rfl⟩ := List.mem_map.mp htoken
    rw [HasComma, String.toList_ofList] at hmem
    simpa using (⟨piece, List.mem_of_mem_filter hpiece, hmem⟩ :
      ∃ piece ∈ first :: more, ',' ∈ topLevel (.outside 0) piece)

/-! ### Definitions without a comma -/

theorem pieces_comma (h : pieces Text.isBlank place text = .ok (first, more))
    (hc : ',' ∉ topLevel place text) : pieces (· == ',') place text = .ok (text, []) := by
  induction text generalizing place first more with
  | nil =>
    obtain ⟨rfl, -, -⟩ := pieces_nil_eq_ok_iff.mp h
    rfl
  | cons d rest ih =>
    -- A blank that separates tokens is a step as well; the reading goes on outside quotes and
    -- brackets.
    obtain ⟨next, others, after, hstep, hrest⟩ : ∃ next others after, place.step d = some next ∧
        pieces Text.isBlank next rest = .ok (others, after) := by
      obtain ⟨rfl, hd, -, others, after, hrest, -⟩ | ⟨-, next, others, hstep, hrest, -⟩ :=
        pieces_cons_eq_ok_iff.mp h
      · exact ⟨_, others, after, step_of_isBlank hd 0, hrest⟩
      · exact ⟨next, others, more, hstep, hrest⟩
    rw [topLevel_cons hstep, List.mem_append, not_or] at hc
    refine pieces_cons_eq_ok_iff.mpr (.inr ⟨?_, next, rest, hstep, ih hrest hc.2, rfl⟩)
    rintro ⟨rfl, hd⟩
    exact hc.1 (by simpa using (beq_iff_eq.mp hd).symm)

/-- A text of blanks has no tokens. -/
theorem pieces_of_blank (htext : ∀ c ∈ text, Text.isBlank c = true)
    (h : pieces Text.isBlank (.outside 0) text = .ok (first, more)) :
    ∀ piece ∈ first :: more, piece = [] := by
  induction text generalizing first more with
  | nil =>
    obtain ⟨-, rfl, rfl⟩ := pieces_nil_eq_ok_iff.mp h
    simp
  | cons c rest ih =>
    obtain ⟨hc, hrest⟩ := List.forall_mem_cons.mp htext
    obtain ⟨-, -, rfl, piece, others, hp, rfl⟩ | ⟨hs, -⟩ := pieces_cons_eq_ok_iff.mp h
    · exact List.forall_mem_cons.mpr ⟨rfl, ih hrest hp⟩
    · exact absurd ⟨rfl, hc⟩ hs

/-- A text with a token is not blank. -/
theorem trimChars_ne_nil_of_tokens (h : tokens definition = .ok all) (hne : all ≠ []) :
    Text.trimChars definition.toList ≠ [] := by
  obtain ⟨first, more, hp, rfl⟩ := tokens_eq_ok_iff.mp h
  intro hnil
  have hblank := pieces_of_blank (Text.trimChars_eq_nil_iff.mp hnil) hp
  apply hne
  rw [List.map_eq_nil_iff, List.filter_eq_nil_iff]
  intro piece hpiece
  simp [hblank piece hpiece]

/-- A definition without a comma is the only one of the list that it makes up. -/
theorem splitList_of_not_hasComma (h : tokens definition = .ok all) (hne : all ≠ [])
    (hc : ¬HasComma definition) : splitList definition = .ok [Text.trim definition] := by
  have htrim := trimChars_ne_nil_of_tokens h hne
  obtain ⟨first, more, hp, rfl⟩ := tokens_eq_ok_iff.mp h
  refine splitList_eq_ok_iff.mpr ⟨definition.toList, [], pieces_comma hp hc, ?_⟩
  simp [htrim, Text.trim]

/-! ### Where a comma can stand -/

/-- Whether a word opens a default or a comment, whose tokens can be any. -/
def opensValue (token : String) : Bool :=
  Text.lower token == "default" || Text.lower token == "comment"

/-- The tokens that need not be words of the grammar: the name, the type, and those of defaults and
comments. -/
def freeTokens : List String → List String
  | name :: base :: rest => name :: base :: rest.dropWhile (!opensValue ·)
  | few => few

theorem not_hasComma_of_lower {words : List String} (hwords : ∀ word ∈ words, ',' ∉ word.toList)
    (h : words.contains (Text.lower token) = true) : ¬HasComma token := by
  intro hcomma
  apply hwords _ (List.contains_iff_mem.mp h)
  rw [Text.lower, String.toList_ofList]
  exact List.mem_map.mpr ⟨',', topLevel_subset hcomma, rfl⟩

theorem not_hasComma_of_isKeyword (h : isKeyword token = true) : ¬HasComma token :=
  not_hasComma_of_lower (by decide) h

theorem not_hasComma_of_isTypeSuffix (h : isTypeSuffix token = true) : ¬HasComma token :=
  not_hasComma_of_lower (by decide) h

/-- Any other clause than a default or a comment takes words of the grammar only. -/
theorem exists_taken_of_clause {made : Clause} (h : clause definition word rest = .ok (made, left))
    (hw : opensValue word = false) : isKeyword word = true ∧
      ∃ taken, rest = taken ++ left ∧ ∀ token ∈ taken, isKeyword token = true := by
  have hword : ∀ {w : String}, Text.lower word = w → keywords.contains w = true →
      isKeyword word = true := by
    rintro _ rfl hmem
    exact hmem
  have hkey : ∀ tokens, ∃ taken, tokens = taken ++ afterKey tokens ∧
      ∀ token ∈ taken, isKeyword token = true := by
    intro tokens
    cases tokens with
    | nil => exact ⟨[], rfl, by simp⟩
    | cons next rest =>
      rw [afterKey]
      split
      case isTrue hnext => exact ⟨[next], rfl, by simp [isKeyword, hnext, keywords]⟩
      case isFalse => exact ⟨[], rfl, by simp⟩
  unfold clause at h
  split at h
  case h_1 heq =>
    refine ⟨hword heq (by decide), ?_⟩
    split at h
    case h_1 next rest =>
      split at h
      case isTrue hnext =>
        cases h
        exact ⟨[next], rfl, by simp [isKeyword, hnext, keywords]⟩
      case isFalse => cases h
    case h_2 => cases h
  case h_3 heq | h_11 heq => simp [opensValue, heq] at hw
  case h_8 heq | h_9 heq =>
    cases h
    exact ⟨hword heq (by decide), hkey rest⟩
  case h_12 => cases h
  all_goals
    next heq =>
      cases h
      exact ⟨hword heq (by decide), [], rfl, by simp⟩

theorem mem_takeWhile_append {p : String → Bool} (h : token ∈ (left ++ rest).takeWhile p) :
    token ∈ left ∨ token ∈ rest.takeWhile p := by
  rw [List.takeWhile_append] at h
  split at h
  · exact List.mem_append.mp h
  · exact .inl (List.takeWhile_subset p h)

/-- The clauses before the first default or comment have no comma. -/
theorem not_hasComma_of_clauses {cs : List Clause} (h : clauses definition rest = .ok cs) :
    ∀ token ∈ rest.takeWhile (!opensValue ·), ¬HasComma token := by
  fun_induction clauses definition rest generalizing cs with
  | case1 => simp
  | case2 => cases h
  | case3 word rest made left hc hlen ih =>
    obtain ⟨others, hothers, -⟩ := map_eq_ok_iff.mp h
    cases hw : opensValue word with
    | true => simp [hw]
    | false =>
      obtain ⟨hword, taken, rfl, htaken⟩ := exists_taken_of_clause hc hw
      rw [List.takeWhile_cons_of_pos (by simp [hw])]
      refine List.forall_mem_cons.mpr ⟨not_hasComma_of_isKeyword hword, fun token ht => ?_⟩
      rcases mem_takeWhile_append ht with ht | ht
      · exact not_hasComma_of_isKeyword (htaken token ht)
      · exact ih hothers token ht

/-- Of the tokens of a definition that can be read, only the free ones can have a comma. -/
theorem hasComma_iff_of_parse {column : Column} (h : parse definition = .ok column) :
    ∃ all, tokens definition = .ok all ∧ all ≠ [] ∧
      (HasComma definition ↔ ∃ token ∈ freeTokens all, HasComma token) := by
  obtain ⟨all, hall, h⟩ := bind_eq_ok_iff.mp h
  obtain ⟨name, base, rest, cs, rfl, -, hcs, -⟩ := ofTokens_eq_ok_iff.mp h
  refine ⟨_, hall, List.cons_ne_nil _ _, (hasComma_iff_of_tokens hall).trans ?_⟩
  -- Up to the first default or comment there are the words of the type, and those of other clauses.
  have hfixed : ∀ token ∈ rest.takeWhile (!opensValue ·), ¬HasComma token := by
    intro token ht
    rw [← List.takeWhile_append_dropWhile (p := isTypeSuffix) (l := rest)] at ht
    rcases mem_takeWhile_append ht with ht | ht
    · exact not_hasComma_of_isTypeSuffix (List.mem_takeWhile_imp ht)
    · exact not_hasComma_of_clauses hcs token ht
  constructor
  · rintro ⟨token, ht, hcomma⟩
    refine ⟨token, ?_, hcomma⟩
    rw [← List.takeWhile_append_dropWhile (p := (!opensValue ·)) (l := rest), List.mem_cons,
      List.mem_cons, List.mem_append] at ht
    rw [freeTokens, List.mem_cons, List.mem_cons]
    exact ht.imp_right (Or.imp_right fun hrest => hrest.resolve_left fun hw =>
      hfixed token hw hcomma)
  · rintro ⟨token, ht, hcomma⟩
    refine ⟨token, ?_, hcomma⟩
    have hsub : freeTokens (name :: base :: rest) ⊆ name :: base :: rest :=
      List.cons_subset_cons _ (List.cons_subset_cons _ (List.dropWhile_suffix _).subset)
    exact hsub ht

end SchemaQuery.Definition

namespace SchemaQuery.Request

open Definition

variable {catalog : Catalog} {request : Request} {resolved : Resolved} {definition : String}

/-! ### Requests that define a column -/

/-- Requests for a new column, or for the new form of one, whose definition is a text. -/
inductive Defines (request : Request) (definition : String) : Method → Prop
  | adds (h : request.fields = .column (.byName definition)) : Defines request definition .addColumn
  | changes (old : ColumnRef) (h : request.fields = .change old (.byName definition)) :
    Defines request definition .alterColumn
  | alters (old : ColumnRef) (h : request.fields = .column old)
    (hnew : request.modifiers.newDefinition = some (.byName definition)) :
    Defines request definition .alterColumn

theorem exists_column_of_defines (h : request.validate catalog = .ok resolved)
    (hd : Defines request definition resolved.method) :
    ∃ column, parse definition = .ok column := by
  have hfields := checkFields_of_validate h
  have hchecked : checkDefinition (.byName definition) = .ok () := by
    generalize resolved.method = method at hd hfields
    cases hd with
    | adds hf => simpa only [checkFields, hf] using hfields
    | changes old hf => simpa only [checkFields, checkAlteration, hf] using hfields
    | alters old hf hnew => simpa only [checkFields, checkAlteration, hf, hnew] using hfields
  obtain ⟨column, hread, -⟩ := bind_eq_ok_iff.mp hchecked
  exact ⟨column, Column.ofDefinition_eq_ok_iff.mp hread⟩

/-- The statement holds the definition as it is, without the blanks around it. -/
theorem text_of_defines (h : request.validate catalog = .ok resolved)
    (hd : Defines request definition resolved.method) :
    (∃ position, request.text catalog =
      .ok (Statement.addColumn request.table.target (Text.trim definition) position).text) ∨
    ∃ column, request.text catalog =
      .ok (Statement.alterColumn request.table.target column (Text.trim definition)).text := by
  obtain ⟨statement, hs, -, htext⟩ := exists_text_of_validate h
  have hwritten : ∀ written, (ColumnRef.byName definition).definition = .ok written →
      written = Text.trim definition := by
    intro written hw
    obtain ⟨_, -, hw⟩ := map_eq_ok_iff.mp hw
    exact hw.symm
  generalize hm : resolved.method = method at hd
  cases hd with
  | adds hf =>
    simp only [statementOf, hm, hf] at hs
    obtain ⟨table, -, hs⟩ := bind_eq_ok_iff.mp hs
    obtain ⟨position, -, hs⟩ := bind_eq_ok_iff.mp hs
    obtain ⟨written, hw, hs⟩ := bind_eq_ok_iff.mp hs
    cases hs
    exact .inl ⟨position, by rw [htext, hwritten written hw]⟩
  | changes old hf =>
    simp only [statementOf, hm, hf] at hs
    obtain ⟨table, -, hs⟩ := bind_eq_ok_iff.mp hs
    obtain ⟨column, -, hs⟩ := bind_eq_ok_iff.mp hs
    obtain ⟨written, hw, hs⟩ := bind_eq_ok_iff.mp hs
    cases hs
    exact .inr ⟨column, by rw [htext, hwritten written hw]⟩
  | alters old hf hnew =>
    simp only [statementOf, hm, hf, hnew] at hs
    obtain ⟨table, -, hs⟩ := bind_eq_ok_iff.mp hs
    obtain ⟨column, -, hs⟩ := bind_eq_ok_iff.mp hs
    obtain ⟨written, hw, hs⟩ := bind_eq_ok_iff.mp hs
    cases hs
    exact .inr ⟨column, by rw [htext, hwritten written hw]⟩

/-- A valid request that adds or alters a column is written with the definition that it was given.
This is a single definition, with no comma outside quotes and brackets, exactly when none of its
free tokens has such a comma: not the name, not the type, and nothing of a default or of a
comment. -/
theorem definition_single (h : request.validate catalog = .ok resolved)
    (hd : Defines request definition resolved.method) :
    ((∃ position, request.text catalog =
        .ok (Statement.addColumn request.table.target (Text.trim definition) position).text) ∨
      ∃ column, request.text catalog =
        .ok (Statement.alterColumn request.table.target column (Text.trim definition)).text) ∧
    ∃ all, tokens definition = .ok all ∧
      (¬HasComma definition ∧ splitList definition = .ok [Text.trim definition] ↔
        ∀ token ∈ freeTokens all, ¬HasComma token) := by
  obtain ⟨column, hread⟩ := exists_column_of_defines h hd
  obtain ⟨all, hall, hne, hcomma⟩ := hasComma_iff_of_parse hread
  refine ⟨text_of_defines h hd, all, hall, ?_⟩
  have hfree : ¬HasComma definition ↔ ∀ token ∈ freeTokens all, ¬HasComma token := by
    rw [hcomma]
    simp
  rw [← hfree]
  exact and_iff_left_of_imp fun hc => splitList_of_not_hasComma hall hne hc

/-- A type, a default and a comment with commas in brackets and in quotes. -/
theorem definition_single_quoted :
    let users : Table :=
      { name := "users", columns := [{ name := "id", owner := some "users", type := "int" }] }
    let catalog : Catalog := ⟨true, [users]⟩
    let definition :=
      " \x60a,b\x60 decimal(10, 2) unsigned null default f(1, ',') comment 'one, two' "
    let request : Request :=
      { method := "alter column", table := .byName "users",
        fields := .change (.byName "id") (.byName definition) }
    ((∃ position, request.text catalog =
        .ok (Statement.addColumn request.table.target (Text.trim definition) position).text) ∨
      ∃ column, request.text catalog =
        .ok (Statement.alterColumn request.table.target column (Text.trim definition)).text) ∧
    ∃ all, tokens definition = .ok all ∧
      (¬HasComma definition ∧ splitList definition = .ok [Text.trim definition] ↔
        ∀ token ∈ freeTokens all, ¬HasComma token) := by
  intro users catalog definition request
  have h : request.validate catalog = .ok ⟨.alterColumn, some users⟩ := by decide +kernel
  exact definition_single h (.changes (.byName "id") rfl)

/-- A comma after a default brings in one more change of the table. -/
theorem exists_addColumn_comma :
    let users : Table :=
      { name := "users", columns := [{ name := "id", owner := some "users", type := "int" }] }
    let catalog : Catalog := ⟨true, [users]⟩
    let definition := "note int default 1, drop column id"
    let request : Request :=
      { method := "add column", table := .byName "users", fields := .column (.byName definition) }
    request.validate catalog = .ok ⟨.addColumn, some users⟩ ∧ HasComma definition ∧
      splitList definition = .ok ["note int default 1", "drop column id"] ∧
      request.text catalog =
        .ok "alter table \x60users\x60 add column note int default 1, drop column id;" := by
  decide +kernel

end SchemaQuery.Request
