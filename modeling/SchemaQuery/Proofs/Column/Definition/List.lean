import Mathlib.Data.List.DropRight
import SchemaQuery.Proofs.Column.Definition.Token

/-! Lists of definitions.  Every definition of a list is a text without blanks around it that no
comma cuts any further, and lists one after the other, with a comma between them, have the
definitions of the one and then of the other.  So definitions that have been put together with
commas are cut apart again. -/

namespace SchemaQuery

/-! ### Texts without blanks around them -/

namespace Text

variable {text : List Char}

theorem dropWhile_trimEnd (text : List Char) :
    (trimEnd text).dropWhile isBlank = trimEnd (text.dropWhile isBlank) := by
  induction text with
  | nil => rfl
  | cons c rest ih =>
    rw [trimEnd]
    by_cases hc : isBlank c = true
    · cases hrest : trimEnd rest with
      | nil => simp [hc, hrest, ← ih]
      | cons d kept => simp [hc, ← ih, hrest]
    · cases hrest : trimEnd rest with
      | nil => simp [hc, trimEnd, hrest]
      | cons d kept => simp [hc, trimEnd, hrest]

theorem trimEnd_trimEnd (text : List Char) : trimEnd (trimEnd text) = trimEnd text := by
  induction text with
  | nil => rfl
  | cons c rest ih =>
    rw [trimEnd]
    cases hrest : trimEnd rest with
    | nil => by_cases hc : isBlank c = true <;> simp [hc, trimEnd]
    | cons d kept =>
      rw [hrest] at ih
      show trimEnd (c :: d :: kept) = c :: d :: kept
      rw [trimEnd, ih]

theorem trimChars_trimChars (text : List Char) : trimChars (trimChars text) = trimChars text := by
  simp only [trimChars, dropWhile_trimEnd, trimEnd_trimEnd, List.dropWhile_idempotent]

theorem trimEnd_eq_nil_iff : trimEnd text = [] ↔ ∀ c ∈ text, isBlank c = true := by
  induction text with
  | nil => simp [trimEnd]
  | cons c rest ih =>
    rw [trimEnd, List.forall_mem_cons, ← ih]
    cases trimEnd rest with
    | nil => by_cases hc : isBlank c = true <;> simp [hc]
    | cons d kept => simp

theorem trimChars_eq_nil_iff : trimChars text = [] ↔ ∀ c ∈ text, isBlank c = true := by
  rw [trimChars, ← dropWhile_trimEnd, List.dropWhile_eq_nil_iff]
  constructor
  · intro h
    rw [← trimEnd_eq_nil_iff, ← trimEnd_trimEnd, trimEnd_eq_nil_iff]
    exact h
  · intro h
    rw [trimEnd_eq_nil_iff.mpr h]
    simp

theorem trimChars_blank {c : Char} (h : isBlank c = true) :
    trimChars (c :: text) = trimChars text := by
  rw [trimChars, List.dropWhile_cons_of_pos h, trimChars]

end Text

namespace Definition

variable {isSeparator : Char → Bool} {place : Place} {text first : List Char}
  {more : List (List Char)}

/-! ### Blanks around a piece -/

theorem step_of_isBlank {c : Char} (h : Text.isBlank c = true) (depth : Nat) :
    (Place.outside depth).step c = some (.outside depth) := by
  have hne : isQuote c = false ∧ c ≠ '(' ∧ c ≠ ')' := by
    refine ⟨?_, ?_, ?_⟩
    · by_contra hquote
      rw [isBlank_of_isQuote (by simpa using hquote)] at h
      cases h
    all_goals
      rintro rfl
      cases h
  simp [Place.step, hne]

theorem pieces_dropWhile (h : pieces isSeparator (.outside 0) text = .ok (text, [])) :
    pieces isSeparator (.outside 0) (text.dropWhile Text.isBlank) =
      .ok (text.dropWhile Text.isBlank, []) := by
  induction text with
  | nil => exact h
  | cons c rest ih =>
    by_cases hc : Text.isBlank c = true
    · obtain ⟨-, -, hnil, -⟩ | ⟨-, next, piece, hstep, hrest, hcons⟩ := pieces_cons_eq_ok_iff.mp h
      · cases hnil
      · cases hcons
        cases (step_of_isBlank hc 0).symm.trans hstep
        rw [List.dropWhile_cons_of_pos hc]
        exact ih hrest
    · rw [List.dropWhile_cons_of_neg hc]
      exact h

/-- Blanks that end a piece stand outside quotes and brackets. -/
theorem pieces_trimEnd (hp : place.IsMarked) (h : pieces isSeparator place text = .ok (text, [])) :
    pieces isSeparator place (Text.trimEnd text) = .ok (Text.trimEnd text, []) := by
  induction text generalizing place with
  | nil => exact h
  | cons c rest ih =>
    obtain ⟨-, -, hnil, -⟩ | ⟨hs, next, piece, hstep, hrest, hcons⟩ := pieces_cons_eq_ok_iff.mp h
    · cases hnil
    · cases hcons
      have hkept := ih (hp.step hstep) hrest
      have hcons : pieces isSeparator place (c :: Text.trimEnd rest) =
          .ok (c :: Text.trimEnd rest, []) :=
        pieces_cons_eq_ok_iff.mpr (.inr ⟨hs, next, _, hstep, hkept, rfl⟩)
      rw [Text.trimEnd]
      cases htrim : Text.trimEnd rest with
      | cons d kept =>
        rw [htrim] at hcons
        exact hcons
      | nil =>
        rw [htrim] at hcons hkept
        by_cases hc : Text.isBlank c = true
        · obtain ⟨rfl, -, -⟩ := pieces_nil_eq_ok_iff.mp hkept
          have hplace : place = .outside 0 := by
            by_contra hne
            rw [isBlank_of_step hp hne hstep] at hc
            cases hc
          rw [if_pos hc, hplace]
          rfl
        · rw [if_neg hc]
          exact hcons

/-! ### Items of a list -/

/-- A definition as a list holds it: a text without blanks around it that no comma cuts any
further. -/
structure IsItem (text : String) : Prop where
  nonempty : text ≠ ""
  trimmed : Text.trimChars text.toList = text.toList
  whole : pieces (· == ',') (.outside 0) text.toList = .ok (text.toList, [])

variable {a b : String} {as bs : List String}

theorem splitList_eq_ok_iff : splitList a = .ok as ↔
    ∃ first more, pieces (· == ',') (.outside 0) a.toList = .ok (first, more) ∧
      (((first :: more).map Text.trimChars).filter (!·.isEmpty)).map String.ofList = as :=
  split_eq_ok_iff

theorem isItem_of_splitList (h : splitList a = .ok as) (hb : b ∈ as) : IsItem b := by
  obtain ⟨first, more, hp, rfl⟩ := splitList_eq_ok_iff.mp h
  obtain ⟨trimmed, htrimmed, rfl⟩ := List.mem_map.mp hb
  obtain ⟨hmem, hne⟩ := List.mem_filter.mp htrimmed
  obtain ⟨piece, hpiece, rfl⟩ := List.mem_map.mp hmem
  refine ⟨by simpa using hne, ?_, ?_⟩
  · rw [String.toList_ofList, Text.trimChars_trimChars]
  · rw [String.toList_ofList]
    exact pieces_trimEnd trivial (pieces_dropWhile (pieces_of_mem hp hpiece))

theorem IsItem.splitList (h : IsItem a) : splitList a = .ok [a] := by
  refine splitList_eq_ok_iff.mpr ⟨a.toList, [], h.whole, ?_⟩
  have hne : a.toList ≠ [] := by
    intro hnil
    exact h.nonempty (String.toList_eq_nil_iff.mp hnil)
  simp [h.trimmed, hne]

/-! ### Lists one after the other -/

theorem splitList_append (ha : splitList a = .ok as) (hb : splitList b = .ok bs) :
    splitList (a ++ "," ++ b) = .ok (as ++ bs) := by
  obtain ⟨first, more, hpa, rfl⟩ := splitList_eq_ok_iff.mp ha
  obtain ⟨next, others, hpb, rfl⟩ := splitList_eq_ok_iff.mp hb
  have hcomma : pieces (· == ',') (.outside 0) (',' :: b.toList) = .ok ([], next :: others) :=
    pieces_cons_eq_ok_iff.mpr (.inl ⟨rfl, rfl, rfl, next, others, hpb, rfl⟩)
  refine splitList_eq_ok_iff.mpr ⟨first, more ++ next :: others, ?_, ?_⟩
  · rw [String.append_assoc, String.toList_append, String.toList_append]
    exact pieces_append hpa hcomma
  · simp only [← List.cons_append, List.map_append, List.filter_append]

/-- A blank in front of a list belongs to its first piece, and goes with the blanks around it. -/
theorem splitList_blank (ha : splitList a = .ok as) : splitList (" " ++ a) = .ok as := by
  obtain ⟨first, more, hp, rfl⟩ := splitList_eq_ok_iff.mp ha
  have hblank : pieces (· == ',') (.outside 0) (' ' :: a.toList) = .ok (' ' :: first, more) :=
    pieces_cons_eq_ok_iff.mpr (.inr ⟨by simp, .outside 0, first, rfl, hp, rfl⟩)
  refine splitList_eq_ok_iff.mpr ⟨' ' :: first, more, ?_, ?_⟩
  · rw [String.toList_append]
    exact hblank
  · rw [List.map_cons, List.map_cons, Text.trimChars_blank (by decide)]

/-- Definitions that are put together with commas are the definitions of the list. -/
theorem splitList_intercalate (h : ∀ item ∈ as, IsItem item) :
    splitList (", ".intercalate as) = .ok as := by
  induction as with
  | nil => rfl
  | cons item rest ih =>
    obtain ⟨hitem, hrest⟩ := List.forall_mem_cons.mp h
    cases rest with
    | nil => simpa using hitem.splitList
    | cons next rest =>
      have hjoin : ", ".intercalate (item :: next :: rest) =
          item ++ "," ++ (" " ++ ", ".intercalate (next :: rest)) := by
        have hcomma : ", " = "," ++ " " := rfl
        rw [String.intercalate_cons_cons, hcomma]
        simp only [String.append_assoc]
      rw [hjoin]
      exact splitList_append hitem.splitList (splitList_blank (ih hrest))

end Definition

end SchemaQuery
