import SchemaQuery.Column.Definition.Printer
import SchemaQuery.Proofs.Except

/-! Tokens of column definitions.  A token is cut at the same places wherever it stands: by itself
it is its only token, and texts with a blank between them have the tokens of the one and then of the
other.  A quoted text is one token and gives the text back. -/

namespace SchemaQuery.Definition

variable {isSeparator : Char → Bool} {place : Place} {text first : List Char}
  {more : List (List Char)}

/-! ### Pieces -/

theorem pieces_nil_eq_ok_iff :
    pieces isSeparator place [] = .ok (first, more) ↔
      place = .outside 0 ∧ first = [] ∧ more = [] := by
  rw [pieces]
  split
  case isTrue hp => simp [hp, eq_comm]
  case isFalse hp => simp [hp]

/-- A character starts a new piece, or belongs to the one it stands in. -/
theorem pieces_cons_eq_ok_iff {c : Char} :
    pieces isSeparator place (c :: text) = .ok (first, more) ↔
    (place = .outside 0 ∧ isSeparator c = true ∧ first = [] ∧
      ∃ next others, pieces isSeparator (.outside 0) text = .ok (next, others) ∧
        more = next :: others) ∨
    ¬(place = .outside 0 ∧ isSeparator c = true) ∧
      ∃ next rest, place.step c = some next ∧ pieces isSeparator next text = .ok (rest, more) ∧
        first = c :: rest := by
  rw [pieces]
  split
  case isTrue hs =>
    simp only [hs.1, hs.2, map_eq_ok_iff, Prod.exists, Prod.mk.injEq, true_and, not_true_eq_false,
      false_and, or_false]
    constructor
    · rintro ⟨next, others, h, rfl, rfl⟩
      exact ⟨rfl, next, others, h, rfl⟩
    · rintro ⟨rfl, next, others, h, rfl⟩
      exact ⟨next, others, h, rfl, rfl⟩
  case isFalse hs =>
    constructor
    · intro h
      refine .inr ⟨hs, ?_⟩
      cases hstep : place.step c with
      | none => simp [hstep] at h
      | some next =>
        simp only [hstep, map_eq_ok_iff] at h
        obtain ⟨⟨rest, others⟩, hr, h⟩ := h
        cases h
        exact ⟨next, rest, rfl, hr, rfl⟩
    · rintro (⟨hp, hc, _⟩ | ⟨_, next, rest, hstep, hr, rfl⟩)
      · exact absurd ⟨hp, hc⟩ hs
      · simp [hstep, hr]

/-- Two texts one after the other, where the second is empty or begins with a separator. -/
theorem pieces_append {other : List Char} {last : List (List Char)}
    (h : pieces isSeparator place text = .ok (first, more))
    (ho : pieces isSeparator (.outside 0) other = .ok ([], last)) :
    pieces isSeparator place (text ++ other) = .ok (first, more ++ last) := by
  induction text generalizing place first more with
  | nil =>
    obtain ⟨rfl, rfl, rfl⟩ := pieces_nil_eq_ok_iff.mp h
    exact ho
  | cons c rest ih =>
    rw [List.cons_append]
    obtain ⟨rfl, hc, rfl, next, others, hr, rfl⟩ | ⟨hs, next, piece, hstep, hr, rfl⟩ :=
      pieces_cons_eq_ok_iff.mp h
    · exact pieces_cons_eq_ok_iff.mpr (.inl ⟨rfl, hc, rfl, next, others ++ last, ih hr, rfl⟩)
    · exact pieces_cons_eq_ok_iff.mpr (.inr ⟨hs, next, piece, hstep, ih hr, rfl⟩)

/-- A piece stays whole when it is cut by itself. -/
theorem pieces_of_piece (h : pieces isSeparator place text = .ok (first, more)) :
    pieces isSeparator place first = .ok (first, []) ∧
      ∀ piece ∈ more, pieces isSeparator (.outside 0) piece = .ok (piece, []) := by
  induction text generalizing place first more with
  | nil =>
    obtain ⟨rfl, rfl, rfl⟩ := pieces_nil_eq_ok_iff.mp h
    exact ⟨h, by simp⟩
  | cons c rest ih =>
    obtain ⟨rfl, hc, rfl, next, others, hr, rfl⟩ | ⟨hs, next, piece, hstep, hr, rfl⟩ :=
      pieces_cons_eq_ok_iff.mp h
    · exact ⟨pieces_nil_eq_ok_iff.mpr ⟨rfl, rfl, rfl⟩, List.forall_mem_cons.mpr (ih hr)⟩
    · obtain ⟨hpiece, hmore⟩ := ih hr
      exact ⟨pieces_cons_eq_ok_iff.mpr (.inr ⟨hs, next, piece, hstep, hpiece, rfl⟩), hmore⟩

theorem pieces_of_mem {piece : List Char}
    (h : pieces isSeparator (.outside 0) text = .ok (first, more))
    (hpiece : piece ∈ first :: more) : pieces isSeparator (.outside 0) piece = .ok (piece, []) := by
  obtain ⟨hfirst, hmore⟩ := pieces_of_piece h
  obtain rfl | hmem := List.mem_cons.mp hpiece
  · exact hfirst
  · exact hmore piece hmem

/-! ### Blanks around pieces -/

/-- Whether the mark of an open quote is one of the quote marks. -/
def Place.IsMarked : Place → Prop
  | .outside _ => True
  | .quoted _ mark _ => isQuote mark = true

theorem Place.IsMarked.step {next : Place} {c : Char} (h : place.IsMarked)
    (hs : place.step c = some next) : next.IsMarked := by
  cases place with
  | outside depth =>
    simp only [Place.step] at hs
    split at hs
    case isTrue hq =>
      cases hs
      exact hq
    case isFalse =>
      cases next with
      | outside => trivial
      | quoted =>
        split at hs
        · cases hs
        · split at hs
          · split at hs <;> cases hs
          · cases hs
  | quoted depth mark escaped =>
    cases escaped with
    | true =>
      cases hs
      exact h
    | false =>
      simp only [Place.step] at hs
      split at hs
      · cases hs
        exact h
      · split at hs <;> cases hs
        · trivial
        · exact h

theorem isBlank_of_isQuote {c : Char} (h : isQuote c = true) : Text.isBlank c = false := by
  simp only [isQuote, Bool.or_eq_true, beq_iff_eq] at h
  obtain (rfl | rfl) | rfl := h <;> decide

/-- A character that leads out of quotes and brackets closes one of them. -/
theorem isBlank_of_step {c : Char} (h : place.IsMarked) (ho : place ≠ .outside 0)
    (hs : place.step c = some (.outside 0)) : Text.isBlank c = false := by
  cases place with
  | outside depth =>
    simp only [Place.step] at hs
    split at hs
    · cases hs
    · split at hs
      · cases hs
      · split at hs
        case isTrue hc =>
          rw [hc]
          decide
        case isFalse => exact absurd (Option.some.inj hs) ho
  | quoted depth mark escaped =>
    cases escaped with
    | true => cases hs
    | false =>
      simp only [Place.step] at hs
      split at hs
      · cases hs
      · split at hs
        case isTrue hc =>
          rw [hc]
          exact isBlank_of_isQuote h
        case isFalse => cases hs

theorem trimEnd_of_pieces (hp : place.IsMarked)
    (h : pieces Text.isBlank place text = .ok (text, [])) : Text.trimEnd text = text := by
  induction text generalizing place with
  | nil => rfl
  | cons c rest ih =>
    obtain ⟨_, _, h, _⟩ | ⟨hs, next, piece, hstep, hr, h⟩ := pieces_cons_eq_ok_iff.mp h
    · cases h
    · cases h
      rw [Text.trimEnd, ih (hp.step hstep) hr]
      cases rest with
      | cons d rest => rfl
      | nil =>
        obtain ⟨rfl, _, _⟩ := pieces_nil_eq_ok_iff.mp hr
        have hc : Text.isBlank c = false := by
          by_cases ho : place = .outside 0
          · simpa [ho] using hs
          · exact isBlank_of_step hp ho hstep
        simp [hc]

/-- What stands between blanks has no blanks around it. -/
theorem trimChars_of_pieces (h : pieces Text.isBlank (.outside 0) text = .ok (text, [])) :
    Text.trimChars text = text := by
  have hmarked : (Place.outside 0).IsMarked := trivial
  have htrim : Text.trimEnd text = text := trimEnd_of_pieces hmarked h
  cases text with
  | nil => rfl
  | cons c rest =>
    obtain ⟨_, _, h, _⟩ | ⟨hs, _⟩ := pieces_cons_eq_ok_iff.mp h
    · cases h
    · have hc : Text.isBlank c = false := by simpa using hs
      rw [Text.trimChars, List.dropWhile_cons_of_neg (by simp [hc])]
      exact htrim

/-! ### Tokens -/

variable {a b : String} {as bs : List String}

theorem split_eq_ok_iff : split isSeparator a = .ok as ↔
    ∃ first more, pieces isSeparator (.outside 0) a.toList = .ok (first, more) ∧
      (((first :: more).map Text.trimChars).filter (!·.isEmpty)).map String.ofList = as := by
  rw [split]
  cases hp : pieces isSeparator (.outside 0) a.toList with
  | error fault => cases fault <;> simp
  | ok found =>
    obtain ⟨first, more⟩ := found
    constructor
    · intro h
      exact ⟨first, more, rfl, Except.ok.inj h⟩
    · rintro ⟨first', more', h, rfl⟩
      cases h
      rfl

/-- What stands between blanks is not trimmed any further. -/
theorem tokens_eq_ok_iff : tokens a = .ok as ↔
    ∃ first more, pieces Text.isBlank (.outside 0) a.toList = .ok (first, more) ∧
      ((first :: more).filter (!·.isEmpty)).map String.ofList = as := by
  rw [tokens, split_eq_ok_iff]
  refine exists₂_congr fun first more => and_congr_right fun hp => ?_
  have htrim : (first :: more).map Text.trimChars = first :: more :=
    (List.map_congr_left fun piece h => trimChars_of_pieces (pieces_of_mem hp h)).trans
      (List.map_id _)
  rw [htrim]

/-- A token is a text that no blank cuts any further. -/
theorem pieces_of_mem_tokens (h : tokens a = .ok as) (hb : b ∈ as) :
    b ≠ "" ∧ pieces Text.isBlank (.outside 0) b.toList = .ok (b.toList, []) := by
  obtain ⟨first, more, hp, rfl⟩ := tokens_eq_ok_iff.mp h
  obtain ⟨piece, hpiece, rfl⟩ := List.mem_map.mp hb
  obtain ⟨hmem, hne⟩ := List.mem_filter.mp hpiece
  refine ⟨by simpa using hne, ?_⟩
  rw [String.toList_ofList]
  exact pieces_of_mem hp hmem

/-- A token is the only token of itself. -/
theorem tokens_of_mem (h : tokens a = .ok as) (hb : b ∈ as) : b ≠ "" ∧ tokens b = .ok [b] := by
  obtain ⟨hne, hwhole⟩ := pieces_of_mem_tokens h hb
  refine ⟨hne, tokens_eq_ok_iff.mpr ⟨b.toList, [], hwhole, ?_⟩⟩
  simp [List.filter_cons_of_pos, hne]

/-- The tokens that a text adds to the one before it: none when it is empty, or else those after a
blank. -/
def Adds (text : String) (added : List String) : Prop :=
  text = "" ∧ added = [] ∨ ∃ rest, text = " " ++ rest ∧ tokens rest = .ok added

theorem adds_empty : Adds "" [] := .inl ⟨rfl, rfl⟩

theorem Adds.of_blank (h : tokens b = .ok bs) : Adds (" " ++ b) bs := .inr ⟨b, rfl, h⟩

/-- Any blank between two texts ends a token. -/
theorem tokens_append_char {c : Char} (hc : Text.isBlank c = true) (ha : tokens a = .ok as)
    (hb : tokens b = .ok bs) : tokens (a ++ String.singleton c ++ b) = .ok (as ++ bs) := by
  obtain ⟨first, more, hp, rfl⟩ := tokens_eq_ok_iff.mp ha
  obtain ⟨next, others, hr, rfl⟩ := tokens_eq_ok_iff.mp hb
  have hblank : pieces Text.isBlank (.outside 0) (c :: b.toList) = .ok ([], next :: others) :=
    pieces_cons_eq_ok_iff.mpr (.inl ⟨rfl, hc, rfl, next, others, hr, rfl⟩)
  refine tokens_eq_ok_iff.mpr ⟨first, more ++ next :: others, ?_, ?_⟩
  · rw [String.append_assoc, String.toList_append, String.toList_append, String.toList_singleton]
    exact pieces_append hp hblank
  · rw [← List.cons_append, List.filter_append, List.map_append]

theorem tokens_append (ha : tokens a = .ok as) (hb : Adds b bs) :
    tokens (a ++ b) = .ok (as ++ bs) := by
  obtain ⟨rfl, rfl⟩ | ⟨rest, rfl, hrest⟩ := hb
  · simpa using ha
  · have hblank : Text.isBlank ' ' = true := by decide
    have hone : " " = String.singleton ' ' := rfl
    rw [← String.append_assoc, hone]
    exact tokens_append_char hblank ha hrest

theorem tokens_append_blank (ha : tokens a = .ok as) (hb : tokens b = .ok bs) :
    tokens (a ++ " " ++ b) = .ok (as ++ bs) := by
  rw [String.append_assoc]
  exact tokens_append ha (.of_blank hb)

/-- Tokens with blanks between them are read one by one. -/
theorem tokens_intercalate (h : ∀ token ∈ as, tokens token = .ok [token]) :
    tokens (" ".intercalate as) = .ok as := by
  induction as with
  | nil => rfl
  | cons token rest ih =>
    obtain ⟨htoken, hrest⟩ := List.forall_mem_cons.mp h
    cases rest with
    | nil => simpa using htoken
    | cons next rest =>
      rw [String.intercalate_cons_cons]
      exact tokens_append_blank htoken (ih hrest)

/-! ### Quotes -/

/-- The characters of a text with marks and backslashes doubled. -/
def doubled (mark : Char) (text : List Char) : List Char :=
  text.flatMap fun c => if c = '\\' ∨ c = mark then [c, c] else [c]

theorem toList_quote {mark : Char} :
    (quote mark a).toList = mark :: doubled mark a.toList ++ [mark] := by
  rw [quote, String.toList_ofList]
  rfl

theorem doubled_cons {mark c : Char} : doubled mark (c :: text) =
    (if c = '\\' ∨ c = mark then [c, c] else [c]) ++ doubled mark text := by
  rw [doubled, List.flatMap_cons]
  rfl

theorem ne_backslash_of_isQuote {mark : Char} (h : isQuote mark = true) : mark ≠ '\\' := by
  rintro rfl
  cases h

/-- A doubled mark closes the quotes and opens them again, and so no blank inside them counts. -/
theorem pieces_doubled {mark : Char} (h : isQuote mark = true) :
    pieces Text.isBlank (.quoted 0 mark false) (doubled mark text ++ [mark]) =
      .ok (doubled mark text ++ [mark], []) := by
  have hmark : mark ≠ '\\' := ne_backslash_of_isQuote h
  induction text with
  | nil => simp [doubled, pieces, Place.step, hmark]
  | cons c rest ih =>
    rw [doubled_cons]
    by_cases hc : c = '\\'
    · simp [hc, pieces, Place.step, ih]
    · by_cases hm : c = mark
      · simp [hm, hmark, pieces, Place.step, h, isBlank_of_isQuote h, ih]
      · simp [hc, hm, pieces, Place.step, ih]

theorem tokens_quote {mark : Char} (h : isQuote mark = true) :
    tokens (quote mark a) = .ok [quote mark a] := by
  refine tokens_eq_ok_iff.mpr ⟨(quote mark a).toList, [], ?_, ?_⟩
  · rw [toList_quote]
    refine pieces_cons_eq_ok_iff.mpr
      (.inr ⟨by simp [isBlank_of_isQuote h], _, _, ?_, pieces_doubled h, rfl⟩)
    simp [Place.step, h]
  · rw [List.filter_cons_of_pos (by simp [toList_quote])]
    simp

theorem unescape_doubled {mark : Char} (h : mark ≠ '\\') :
    unescape mark (doubled mark text) = text := by
  induction text with
  | nil => rfl
  | cons c rest ih =>
    rw [doubled_cons]
    by_cases hc : c = '\\'
    · simp [hc, unescape, ih]
    · by_cases hm : c = mark
      · simp [hm, h, unescape, ih]
      · cases hd : doubled mark rest with
        | nil =>
          rw [hd] at ih
          simp [hc, hm, unescape, ← ih]
        | cons d others =>
          rw [hd] at ih
          simp [hc, hm, unescape, ih]

theorem unquote_quote {mark : Char} (h : mark ≠ '\\') : unquote mark (quote mark a) = a := by
  have hinner : between? mark (quote mark a).toList = some (doubled mark a.toList) := by
    rw [toList_quote]
    simp [between?]
  rw [unquote, hinner]
  simp [unescape_doubled h]

/-! ### Names -/

theorem needsQuotes_eq_false_iff : needsQuotes a = false ↔ a ≠ "" ∧ ∀ c ∈ a.toList,
    Text.isBlank c = false ∧ isQuote c = false ∧ c ≠ '(' ∧ c ≠ ')' ∧ c ≠ ',' := by
  simp [needsQuotes, and_assoc]

/-- Characters without meaning belong to one piece. -/
theorem pieces_of_plain (h : ∀ c ∈ text, Text.isBlank c = false ∧ isQuote c = false ∧ c ≠ '(' ∧
    c ≠ ')') : pieces Text.isBlank (.outside 0) text = .ok (text, []) := by
  induction text with
  | nil => rfl
  | cons c rest ih =>
    obtain ⟨⟨hblank, hquote, hopen, hclose⟩, hrest⟩ := List.forall_mem_cons.mp h
    simp [pieces, hblank, Place.step, hquote, hopen, hclose, ih hrest]

theorem tokens_of_plain (hne : a ≠ "")
    (h : ∀ c ∈ a.toList, Text.isBlank c = false ∧ isQuote c = false ∧ c ≠ '(' ∧ c ≠ ')') :
    tokens a = .ok [a] := by
  refine tokens_eq_ok_iff.mpr ⟨a.toList, [], pieces_of_plain h, ?_⟩
  rw [List.filter_cons_of_pos (by simpa using hne)]
  simp

theorem tokens_nameToken : tokens (nameToken a) = .ok [nameToken a] := by
  rw [nameToken]
  cases hq : needsQuotes a with
  | true => exact tokens_quote rfl
  | false =>
    obtain ⟨hne, hplain⟩ := needsQuotes_eq_false_iff.mp hq
    refine tokens_of_plain hne fun c hc => ?_
    obtain ⟨hblank, hquote, hopen, hclose, _⟩ := hplain c hc
    exact ⟨hblank, hquote, hopen, hclose⟩

theorem unquote_nameToken : unquote '\x60' (nameToken a) = a := by
  rw [nameToken]
  cases hq : needsQuotes a with
  | true => exact unquote_quote (by decide)
  | false =>
    have hnone : between? '\x60' a.toList = none := by
      obtain ⟨_, hplain⟩ := needsQuotes_eq_false_iff.mp hq
      cases ha : a.toList with
      | nil => rfl
      | cons c rest =>
        have hc : c ≠ '\x60' := by
          rintro rfl
          cases (hplain '\x60' (by simp [ha])).2.1
        simp [between?, hc]
    simp [unquote, hnone]

end SchemaQuery.Definition
