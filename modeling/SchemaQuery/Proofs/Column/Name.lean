import SchemaQuery.Proofs.Column.Definition.RoundTrip
import SchemaQuery.Proofs.Join
import SchemaQuery.Proofs.MySql.Token

/-! Names of columns in definitions and in statements.  A definition quotes the names that would not
be one token, and a statement those that are not bare words; inside the quotes the one doubles
backslashes and the other does not.  So the two agree on bare words, and on quoted names without a
backslash, and on no others. -/

namespace SchemaQuery

namespace Definition

variable {place : Place} {text first : List Char} {more : List (List Char)} {c : Char}
variable {a token : String}

/-! ### The first token -/

/-- What stands before the first blank outside quotes and brackets. -/
def firstPiece (place : Place) : List Char → List Char
  | [] => []
  | c :: rest =>
    if place = .outside 0 ∧ Text.isBlank c then []
    else
      match place.step c with
      | none => [c]
      | some next => c :: firstPiece next rest

/-- The first token of a text, whether or not the rest of it can be cut into tokens. -/
def firstToken (text : String) : String :=
  String.ofList (firstPiece (.outside 0) (text.toList.dropWhile Text.isBlank))

theorem firstPiece_of_pieces (h : pieces Text.isBlank place text = .ok (first, more)) :
    firstPiece place text = first := by
  induction text generalizing place first more with
  | nil =>
    obtain ⟨-, rfl, -⟩ := pieces_nil_eq_ok_iff.mp h
    rfl
  | cons c rest ih =>
    rw [firstPiece]
    obtain ⟨hp, hc, rfl, -⟩ | ⟨hs, next, piece, hstep, hrest, rfl⟩ := pieces_cons_eq_ok_iff.mp h
    · rw [if_pos ⟨hp, hc⟩]
    · rw [if_neg hs, hstep]
      exact congrArg (c :: ·) (ih hrest)

/-- A piece ends where a blank follows it. -/
theorem firstPiece_append (h : pieces Text.isBlank place text = .ok (text, []))
    (hc : Text.isBlank c = true) (other : List Char) :
    firstPiece place (text ++ c :: other) = text := by
  induction text generalizing place with
  | nil =>
    obtain ⟨rfl, -, -⟩ := pieces_nil_eq_ok_iff.mp h
    rw [List.nil_append, firstPiece, if_pos ⟨rfl, hc⟩]
  | cons d rest ih =>
    obtain ⟨-, -, hnil, -⟩ | ⟨hs, next, piece, hstep, hrest, hcons⟩ := pieces_cons_eq_ok_iff.mp h
    · cases hnil
    · cases hcons
      rw [List.cons_append, firstPiece, if_neg hs, hstep]
      exact congrArg (d :: ·) (ih hrest)

/-- Blanks in front of a text come with pieces that are empty. -/
theorem headD_pieces (h : pieces Text.isBlank (.outside 0) text = .ok (first, more)) :
    ((first :: more).filter (!·.isEmpty)).headD [] =
      firstPiece (.outside 0) (text.dropWhile Text.isBlank) := by
  induction text generalizing first more with
  | nil =>
    obtain ⟨-, rfl, rfl⟩ := pieces_nil_eq_ok_iff.mp h
    rfl
  | cons c rest ih =>
    obtain ⟨-, hc, rfl, next, others, hrest, rfl⟩ | ⟨hs, next, piece, -, -, rfl⟩ :=
      pieces_cons_eq_ok_iff.mp h
    · have hnext := ih hrest
      rw [List.dropWhile_cons_of_pos hc]
      exact hnext
    · rw [List.dropWhile_cons_of_neg (fun hc => hs ⟨rfl, hc⟩), firstPiece_of_pieces h]
      rfl

/-- The first token is the one that comes first when a text is cut. -/
theorem firstToken_of_tokens {all : List String} (h : tokens a = .ok all) :
    firstToken a = all.headD "" := by
  obtain ⟨first, more, hp, rfl⟩ := tokens_eq_ok_iff.mp h
  rw [firstToken, ← headD_pieces hp]
  cases (first :: more).filter (!·.isEmpty) with
  | nil => rfl
  | cons piece others => rfl

/-- A text that begins with a token and a blank. -/
theorem firstToken_append (h : tokens token = .ok [token]) (tail : String) :
    firstToken (token ++ " " ++ tail) = token := by
  obtain ⟨hne, hwhole⟩ := pieces_of_mem_tokens h List.mem_cons_self
  have hlist : (token ++ " " ++ tail).toList = token.toList ++ ' ' :: tail.toList := by
    simp
  have hdrop : (token.toList ++ ' ' :: tail.toList).dropWhile Text.isBlank =
      token.toList ++ ' ' :: tail.toList := by
    cases htoken : token.toList with
    | nil => exact absurd (String.toList_eq_nil_iff.mp htoken) hne
    | cons c rest =>
      rw [htoken] at hwhole
      obtain ⟨-, -, hnil, -⟩ | ⟨hs, -⟩ := pieces_cons_eq_ok_iff.mp hwhole
      · cases hnil
      · exact List.dropWhile_cons_of_neg fun hc => hs ⟨rfl, hc⟩
  rw [firstToken, hlist, hdrop, firstPiece_append hwhole (by decide), String.ofList_toList]

/-! ### The two ways of writing a name -/

theorem length_doubled (name : List Char) : (doubled '\x60' name).length =
    (MySql.doubledMarks name).length + name.count '\\' := by
  induction name with
  | nil => rfl
  | cons c rest ih =>
    rw [doubled_cons, MySql.doubledMarks_cons, List.length_append, List.length_append, ih,
      List.count_cons]
    by_cases hback : c = '\\'
    · subst hback
      simp
      omega
    · by_cases hmark : c = '\x60' <;> simp [hback, hmark] <;> omega

/-- Both rules double the backticks of a quoted name, and one of them the backslashes as well. -/
theorem quote_eq_quoteIdentifier_iff :
    quote '\x60' a = MySql.quoteIdentifier a ↔ '\\' ∉ a.toList := by
  rw [← String.toList_inj, toList_quote, MySql.toList_quoteIdentifier, ← List.count_eq_zero]
  constructor
  · intro h
    have hlength := congrArg List.length h
    simp only [List.length_append, List.length_cons, length_doubled] at hlength
    omega
  · intro hnone
    have hsame : doubled '\x60' a.toList = MySql.doubledMarks a.toList := by
      refine List.flatMap_congr fun c hc => ?_
      have hne : c ≠ '\\' := by
        rintro rfl
        exact List.count_eq_zero.mp hnone hc
      simp [hne]
    rw [hsame]

theorem isBlank_of_isWordChar (h : MySql.isWordChar c = true) : Text.isBlank c = false := by
  have hrange : c.toNat = 36 ∨ 48 ≤ c.toNat ∧ c.toNat ≤ 122 := by
    -- The tests for letters and digits are opened down to the bounds of their ranges.
    delta MySql.isWordChar Char.isAlphanum Char.isAlpha Char.isUpper Char.isLower Char.isDigit at h
    simp only [Bool.or_eq_true, Bool.and_eq_true, decide_eq_true_eq, beq_iff_eq,
      UInt32.le_iff_toNat_le] at h
    obtain (((h | h) | h) | rfl) | rfl := h
    · have hupper : 65 ≤ c.toNat ∧ c.toNat ≤ 90 := h
      omega
    · have hlower : 97 ≤ c.toNat ∧ c.toNat ≤ 122 := h
      omega
    · have hdigit : 48 ≤ c.toNat ∧ c.toNat ≤ 57 := h
      omega
    · exact .inr (by decide)
    · exact .inl rfl
  simp [Text.isBlank]
  omega

/-- A bare word is one token. -/
theorem needsQuotes_of_isBare (h : MySql.isBare a = true) : needsQuotes a = false := by
  have hne : ∀ {c : Char} (d : Char), MySql.isWordChar c = true → MySql.isWordChar d = false →
      c ≠ d := by
    rintro c _ hc hd rfl
    rw [hc] at hd
    cases hd
  refine needsQuotes_eq_false_iff.mpr ⟨?_, fun c hc => ?_⟩
  · rintro rfl
    cases h
  · have hword := MySql.isWordChar_of_isBare h c hc
    refine ⟨isBlank_of_isWordChar hword, ?_, hne '(' hword rfl, hne ')' hword rfl,
      hne ',' hword rfl⟩
    simp [isQuote, hne '\x60' hword rfl, hne '\'' hword rfl, hne '"' hword rfl]

theorem nameToken_eq_columnIdentifier_iff : nameToken a = MySql.columnIdentifier a ↔
    MySql.isBare a = true ∨ needsQuotes a = true ∧ '\\' ∉ a.toList := by
  rw [nameToken, MySql.columnIdentifier]
  cases hbare : MySql.isBare a with
  | true => simp [needsQuotes_of_isBare hbare]
  | false =>
    cases hquotes : needsQuotes a with
    | true => simp [quote_eq_quoteIdentifier_iff]
    | false =>
      have hne : a ≠ MySql.quoteIdentifier a := by
        intro h
        have hmem : '\x60' ∈ a.toList := by
          rw [h, MySql.toList_quoteIdentifier]
          simp
        cases ((needsQuotes_eq_false_iff.mp hquotes).2 _ hmem).2.1
      simpa using hne

end Definition

namespace Column

open Definition

variable {column : Column}

/-- A definition begins with the name, written as one token. -/
theorem exists_tail_definition (column : Column) :
    ∃ tail, column.definition = nameToken column.name ++ " " ++ tail := by
  rw [Column.definition, print_eq]
  simp only [String.append_assoc]
  exact ⟨_, rfl⟩

/-- Whatever else a column is, its definition begins with one token for its name.  This token is
what a statement writes for the column exactly when the name is a bare word, or has to be quoted in
a definition and has no backslash. -/
theorem firstToken_definition (hplain : hasPoint column.name = false) :
    (∀ all, tokens column.definition = .ok all → all.head? = some (firstToken column.definition)) ∧
    (∃ tail, column.definition = firstToken column.definition ++ " " ++ tail) ∧
    (firstToken column.definition = columnText column.name ↔
      MySql.isBare column.name = true ∨
        needsQuotes column.name = true ∧ '\\' ∉ column.name.toList) := by
  obtain ⟨tail, htail⟩ := exists_tail_definition column
  have hfirst : firstToken column.definition = nameToken column.name := by
    rw [htail]
    exact firstToken_append tokens_nameToken tail
  have htext : columnText column.name = MySql.columnIdentifier column.name := by
    simp only [columnText, MySql.qualifiedColumn, splitFirst?_plain hplain]
  refine ⟨fun all hall => ?_, ⟨tail, by rw [hfirst, htail]⟩, ?_⟩
  · have hhead := firstToken_of_tokens hall
    cases all with
    | nil =>
      exact absurd (hfirst.symm.trans hhead) (tokens_of_mem tokens_nameToken List.mem_cons_self).1
    | cons token rest => exact congrArg some hhead.symm
  · rw [hfirst, htext]
    exact nameToken_eq_columnIdentifier_iff

/-- A name with a blank and a backtick, in the definition of a column whose type is not one. -/
theorem firstToken_definition_quoted :
    let column : Column := { name := "a \x60b", type := "set('x" }
    hasPoint column.name = false ∧
    (∀ all, tokens column.definition = .ok all → all.head? = some (firstToken column.definition)) ∧
    (∃ tail, column.definition = firstToken column.definition ++ " " ++ tail) ∧
    (firstToken column.definition = columnText column.name ↔
      MySql.isBare column.name = true ∨
        needsQuotes column.name = true ∧ '\\' ∉ column.name.toList) :=
  ⟨by decide, firstToken_definition (by decide)⟩

/-- A name that is one token but not a bare word stands in a definition as it is, and one with a
blank and a backslash has it doubled there. -/
theorem firstToken_definition_ne_columnText :
    let column (name : String) : Column := { name, type := "int" }
    (∀ name ∈ ["a-b", "42", "größe", "a\\b", "a b\\c"], name ≠ "" ∧ hasPoint name = false ∧
      firstToken (column name).definition ≠ columnText name) ∧
    (column "a-b").definition = "a-b int null" ∧ columnText "a-b" = "\x60a-b\x60" ∧
    (column "a b\\c").definition = "\x60a b\\\\c\x60 int null" ∧
      columnText "a b\\c" = "\x60a b\\c\x60" := by
  decide +kernel

end Column

end SchemaQuery
