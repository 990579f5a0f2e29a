import Mathlib.Data.List.TakeWhile
import SchemaQuery.Column.Definition.Parser
import SchemaQuery.Proofs.Except

/-! Clauses of column definitions.  A clause takes its words from the front of the tokens, and where
it stops is decided by the next word alone.  Every default that is read consists of a token and
further ones outside the grammar. -/

namespace SchemaQuery.Definition

variable {definition word : String} {c : Clause} {cs : List Clause} {rest left : List String}

/-! ### One clause after the other -/

theorem clauses_cons (h : clause definition word rest = .ok (c, left)) :
    clauses definition (word :: rest) = (clauses definition left).map (c :: ·) := by
  rw [clauses]
  split
  case h_1 fault hc => cases h.symm.trans hc
  case h_2 c' left' hc =>
    cases h.symm.trans hc
    rfl

/-! ### Where a default stops -/

/-- Whether a list of tokens is empty or begins with a word of the grammar. -/
def BeginsClause (tokens : List String) : Prop := ∀ word ∈ tokens.head?, isKeyword word = true

theorem beginsClause_nil : BeginsClause [] := by simp [BeginsClause]

theorem beginsClause_cons (h : isKeyword word = true) : BeginsClause (word :: rest) := by
  simpa [BeginsClause] using h

theorem BeginsClause.append (h : BeginsClause rest) (hl : BeginsClause left) :
    BeginsClause (rest ++ left) := by
  cases rest with
  | nil => exact hl
  | cons word rest => simpa [BeginsClause] using h

theorem takeWhile_not_isKeyword (h : BeginsClause rest) : rest.takeWhile (!isKeyword ·) = [] := by
  cases rest with
  | nil => rfl
  | cons word rest =>
    have hw : isKeyword word = true := by simpa [BeginsClause] using h
    simp [hw]

theorem dropWhile_not_isKeyword (h : BeginsClause rest) : rest.dropWhile (!isKeyword ·) = rest := by
  cases rest with
  | nil => rfl
  | cons word rest =>
    have hw : isKeyword word = true := by simpa [BeginsClause] using h
    simp [hw]

/-! ### Where a type stops -/

theorem not_isTypeSuffix_of_isKeyword (h : isKeyword word = true) : isTypeSuffix word = false := by
  have hnone : ∀ word ∈ keywords, typeSuffixes.contains word = false := by decide
  exact hnone _ (List.contains_iff_mem.mp h)

theorem isTypeSuffix_append {suffixes : List String}
    (hs : ∀ token ∈ suffixes, isTypeSuffix token = true) (h : BeginsClause rest) :
    (suffixes ++ rest).takeWhile isTypeSuffix = suffixes ∧
      (suffixes ++ rest).dropWhile isTypeSuffix = rest := by
  rw [List.takeWhile_append_of_pos hs, List.dropWhile_append_of_pos hs]
  cases rest with
  | nil => simp
  | cons word rest =>
    have hw : isTypeSuffix word = false :=
      not_isTypeSuffix_of_isKeyword (by simpa [BeginsClause] using h)
    simp [hw]

/-! ### The values of defaults -/

/-- Whether a text is what a default clause can hold: a token, and further ones outside the
grammar. -/
def IsDefault (tokens : List String) : Prop :=
  ∃ first parts, tokens = first :: parts ∧ ∀ token ∈ parts, isKeyword token = false

theorem clauses_default {value : List String} (hw : Text.lower word = "default")
    (hv : IsDefault value) (h : BeginsClause rest) : clauses definition (word :: (value ++ rest)) =
      (clauses definition rest).map (.default (" ".intercalate value) :: ·) := by
  obtain ⟨first, parts, rfl, hparts⟩ := hv
  have hkept : ∀ token ∈ parts, (!isKeyword token) = true := by simpa using hparts
  have htake : (parts ++ rest).takeWhile (!isKeyword ·) = parts := by
    rw [List.takeWhile_append_of_pos hkept, takeWhile_not_isKeyword h, List.append_nil]
  have hdrop : (parts ++ rest).dropWhile (!isKeyword ·) = rest := by
    rw [List.dropWhile_append_of_pos hkept, dropWhile_not_isKeyword h]
  refine clauses_cons ?_
  simp only [clause, hw, List.cons_append]
  rw [htake, hdrop]

/-! ### The defaults that are read -/

theorem default_of_clause {value : String}
    (h : clause definition word rest = .ok (.default value, left)) :
    ∃ tokens, IsDefault tokens ∧ tokens ⊆ rest ∧ value = " ".intercalate tokens := by
  unfold clause at h
  split at h
  case h_1 =>
    split at h
    · split at h <;> cases h
    · cases h
  case h_3 =>
    split at h
    case h_1 => cases h
    case h_2 first rest =>
      cases h
      refine ⟨_, ⟨first, _, rfl, fun token ht => ?_⟩, ?_, rfl⟩
      · simpa using List.mem_takeWhile_imp ht
      · exact List.cons_subset_cons first (List.takeWhile_subset _)
  all_goals cases h

theorem suffix_of_clause (h : clause definition word rest = .ok (c, left)) : left <:+ rest := by
  unfold clause at h
  split at h
  case h_1 =>
    split at h
    · split at h
      · cases h
        exact List.suffix_cons _ _
      · cases h
    · cases h
  case h_3 =>
    split at h
    · cases h
    · cases h
      exact (List.dropWhile_suffix _).trans (List.suffix_cons _ _)
  case h_8 | h_9 =>
    cases h
    cases rest with
    | nil => exact List.suffix_rfl
    | cons token rest =>
      rw [afterKey]
      split
      · exact List.suffix_cons _ _
      · exact List.suffix_rfl
  case h_11 =>
    cases h
    exact List.nil_suffix
  case h_12 => cases h
  all_goals
    cases h
    exact List.suffix_rfl

theorem default_of_clauses {value : String} (h : clauses definition rest = .ok cs)
    (hv : .default value ∈ cs) : ∃ tokens, IsDefault tokens ∧ tokens ⊆ rest ∧
      value = " ".intercalate tokens := by
  fun_induction clauses definition rest generalizing cs with
  | case1 =>
    cases h
    cases hv
  | case2 => cases h
  | case3 word rest c left hc hlen ih =>
    obtain ⟨others, ho, rfl⟩ := map_eq_ok_iff.mp h
    obtain rfl | hv := List.mem_cons.mp hv
    · obtain ⟨tokens, htokens, hsub, rfl⟩ := default_of_clause hc
      exact ⟨tokens, htokens, List.subset_cons_of_subset _ hsub, rfl⟩
    · obtain ⟨tokens, htokens, hsub, rfl⟩ := ih ho hv
      have hleft : tokens ⊆ rest := List.Subset.trans hsub (suffix_of_clause hc).subset
      exact ⟨tokens, htokens, List.subset_cons_of_subset _ hleft, rfl⟩

end SchemaQuery.Definition
