import Mathlib.Data.List.Basic
import SchemaQuery.Text.Cut

/-! Cutting a text.  A cut at the first or at the last mark is told by what stands between the
marks; cutting at every mark inverts joining pieces that have none. -/

namespace SchemaQuery.Text

variable {mark : Char} {text front rest : List Char}

theorem isPrefixOf?_eq_some_iff : front.isPrefixOf? text = some rest ↔ text = front ++ rest := by
  induction front generalizing text with
  | nil => simp [List.isPrefixOf?]
  | cons a front ih =>
    cases text with
    | nil => simp [List.isPrefixOf?]
    | cons b text =>
      by_cases hab : a = b
      · simp [List.isPrefixOf?, hab, ih]
      · simp [List.isPrefixOf?, hab, Ne.symm hab]

theorem after?_eq_some_iff {lead whole left : String} :
    after? lead whole = some left ↔ whole = lead ++ left := by
  rw [after?, Option.map_eq_some_iff]
  constructor
  · rintro ⟨found, hfound, rfl⟩
    rw [← String.toList_inj, String.toList_append, String.toList_ofList]
    exact isPrefixOf?_eq_some_iff.mp hfound
  · rintro rfl
    exact ⟨left.toList, isPrefixOf?_eq_some_iff.mpr String.toList_append, String.ofList_toList⟩

theorem after?_append (lead rest : String) : after? lead (lead ++ rest) = some rest :=
  after?_eq_some_iff.mpr rfl

/-! ### The first and the last mark -/

theorem cutFirst_eq_none_iff : cutFirst mark text = none ↔ mark ∉ text := by
  induction text with
  | nil => simp [cutFirst]
  | cons c text ih =>
    by_cases hc : c = mark
    · simp [cutFirst, hc]
    · simp [cutFirst, hc, Ne.symm hc, ih]

theorem cutFirst_eq_some_iff :
    cutFirst mark text = some (front, rest) ↔ text = front ++ mark :: rest ∧ mark ∉ front := by
  induction text generalizing front with
  | nil => simp [cutFirst]
  | cons c text ih =>
    by_cases hc : c = mark
    · subst hc
      cases front with
      | nil => simp [cutFirst, eq_comm]
      | cons d front => simp +contextual [cutFirst]
    · cases front with
      | nil => simp [cutFirst, hc]
      | cons d front =>
        simp [cutFirst, hc]
        grind

theorem cutLast_eq_none_iff : cutLast mark text = none ↔ mark ∉ text := by
  induction text with
  | nil => simp [cutLast]
  | cons c text ih =>
    rw [cutLast, List.mem_cons, not_or, ← ih]
    cases cutLast mark text with
    | none => simp [eq_comm]
    | some found => simp

theorem cutLast_append (h : mark ∉ rest) :
    cutLast mark (front ++ mark :: rest) = some (front, rest) := by
  induction front with
  | nil => rw [List.nil_append, cutLast, cutLast_eq_none_iff.mpr h]; simp
  | cons c front ih => rw [List.cons_append, cutLast, ih]

theorem cutLast_eq_some_iff :
    cutLast mark text = some (front, rest) ↔ text = front ++ mark :: rest ∧ mark ∉ rest := by
  constructor
  · intro h
    induction text generalizing front with
    | nil => cases h
    | cons c text ih =>
      rw [cutLast] at h
      cases hcut : cutLast mark text with
      | none =>
        rw [hcut] at h
        split_ifs at h with hc
        cases h
        exact ⟨by rw [hc]; rfl, cutLast_eq_none_iff.mp hcut⟩
      | some found =>
        rw [hcut] at h
        cases h
        obtain ⟨htext, hrest⟩ := ih hcut
        exact ⟨by rw [htext]; rfl, hrest⟩
  · rintro ⟨rfl, h⟩
    exact cutLast_append h

/-- A mark and the text behind it, or neither. -/
def marked (mark : Char) (rest : Option (List Char)) : List Char := rest.elim [] (mark :: ·)

theorem cutFirst_marked (h : mark ∉ front) (rest : Option (List Char)) :
    cutFirst mark (front ++ marked mark rest) = rest.map (front, ·) := by
  cases rest with
  | none => simpa [marked, cutFirst_eq_none_iff] using h
  | some rest => exact cutFirst_eq_some_iff.mpr ⟨rfl, h⟩

theorem exists_marked (mark : Char) (text : List Char) :
    ∃ front rest, text = front ++ marked mark rest ∧ mark ∉ front := by
  cases hcut : cutFirst mark text with
  | none => exact ⟨text, none, by simp [marked], cutFirst_eq_none_iff.mp hcut⟩
  | some cut =>
    obtain ⟨htext, hfront⟩ := cutFirst_eq_some_iff.mp hcut
    exact ⟨cut.1, some cut.2, htext, hfront⟩

/-- A marker is found where its first character is. -/
theorem cutAt_append (h : mark ∉ front) (marker : List Char) :
    cutAt (mark :: marker) (front ++ (mark :: marker ++ rest)) = some (front, rest) := by
  induction front with
  | nil =>
    rw [List.nil_append, List.cons_append, cutAt,
      isPrefixOf?_eq_some_iff.mpr (List.cons_append ..).symm]
  | cons c front ih =>
    obtain ⟨hc, hfront⟩ := List.ne_and_not_mem_of_not_mem_cons h
    have hnone :
        (mark :: marker).isPrefixOf? (c :: (front ++ (mark :: marker ++ rest))) = none := by
      simp [List.isPrefixOf?, hc]
    rw [List.cons_append, cutAt, hnone, ih hfront]
    rfl

/-! ### Every mark -/

theorem cutAll_ne_nil (mark : Char) (text : List Char) : cutAll mark text ≠ [] := by
  cases text with
  | nil => simp [cutAll]
  | cons c text =>
    rw [cutAll]
    split
    · simp
    · split <;> simp

theorem cutAll_of_not_mem (h : mark ∉ text) : cutAll mark text = [text] := by
  induction text with
  | nil => rfl
  | cons c text ih =>
    obtain ⟨hc, htext⟩ := List.ne_and_not_mem_of_not_mem_cons h
    rw [cutAll, if_neg (Ne.symm hc), ih htext]

theorem cutAll_append (h : mark ∉ front) :
    cutAll mark (front ++ mark :: rest) = front :: cutAll mark rest := by
  induction front with
  | nil => simp [cutAll]
  | cons c front ih =>
    obtain ⟨hc, hfront⟩ := List.ne_and_not_mem_of_not_mem_cons h
    rw [List.cons_append, cutAll, if_neg (Ne.symm hc), ih hfront]

theorem not_mem_of_mem_cutAll : ∀ piece ∈ cutAll mark text, mark ∉ piece := by
  induction text with
  | nil => simp [cutAll]
  | cons c text ih =>
    rw [cutAll]
    by_cases hc : c = mark
    · simpa [hc] using ih
    · rw [if_neg hc]
      cases hcut : cutAll mark text with
      | nil => simp [Ne.symm hc]
      | cons first more =>
        rw [hcut, List.forall_mem_cons] at ih
        simpa [Ne.symm hc] using ih

/-- Pieces that have been joined by marks are cut apart again. -/
theorem cutAll_intercalate {pieces : List (List Char)} (hne : pieces ≠ [])
    (h : ∀ piece ∈ pieces, mark ∉ piece) :
    cutAll mark (List.intercalate [mark] pieces) = pieces := by
  induction pieces with
  | nil => exact absurd rfl hne
  | cons piece more ih =>
    obtain ⟨hpiece, hmore⟩ := List.forall_mem_cons.mp h
    cases more with
    | nil => simpa using cutAll_of_not_mem hpiece
    | cons next more =>
      have hjoin : List.intercalate [mark] (piece :: next :: more) =
          piece ++ mark :: List.intercalate [mark] (next :: more) := by
        simp [List.intercalate]
      rw [hjoin, cutAll_append hpiece, ih (by simp) hmore]

end SchemaQuery.Text
