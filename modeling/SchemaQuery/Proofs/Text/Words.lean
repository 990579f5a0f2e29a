import Mathlib.Data.List.Basic
import SchemaQuery.Text.Blank
import SchemaQuery.Text.Case

/-! Words of a text.  The words are told by the layout of the text: they stand between blanks,
whatever blanks these are and however many.  No letter is a blank in either case, so that the case
of letters does not move a word. -/

namespace SchemaQuery.Text

variable {c : Char} {f : Char → Char} {a b rest : List Char} {ws vs : List String}
  {word text : String}

/-! ### Letter case -/

theorem isBlank_of_letter (hlow : 65 ≤ c.toNat) (hhigh : c.toNat ≤ 122) : isBlank c = false := by
  simp only [isBlank, Bool.or_eq_false_iff, Bool.and_eq_false_iff, decide_eq_false_iff_not,
    beq_eq_false_iff_ne]
  omega

theorem toNat_toUpper (h : 97 ≤ c.toNat ∧ c.toNat ≤ 122) : c.toUpper.toNat = c.toNat - 32 := by
  have hletter : 'a'.val ≤ c.val ∧ c.val ≤ 'z'.val := h
  have hupper : c.toUpper = ⟨c.val + ('A'.val - 'a'.val), _⟩ := dif_pos hletter
  have hval : c.toUpper.val = c.val + ('A'.val - 'a'.val) := by rw [hupper]
  have hstep : ('A'.val - 'a'.val).toNat = 2 ^ 32 - 32 := by decide
  rw [← Char.toNat_val, hval, UInt32.toNat_add, hstep, Char.toNat_val]
  omega

theorem toNat_toLower (h : 65 ≤ c.toNat ∧ c.toNat ≤ 90) : c.toLower.toNat = c.toNat + 32 := by
  have hletter : c.val ≥ 'A'.val ∧ c.val ≤ 'Z'.val := h
  have hlower : c.toLower = ⟨c.val + ('a'.val - 'A'.val), _⟩ := dif_pos hletter
  have hval : c.toLower.val = c.val + ('a'.val - 'A'.val) := by rw [hlower]
  have hstep : ('a'.val - 'A'.val).toNat = 32 := by decide
  rw [← Char.toNat_val, hval, UInt32.toNat_add, hstep, Char.toNat_val]
  omega

theorem isBlank_toUpper (c : Char) : isBlank c.toUpper = isBlank c := by
  by_cases h : 97 ≤ c.toNat ∧ c.toNat ≤ 122
  · have hupper := toNat_toUpper h
    rw [isBlank_of_letter (by omega) (by omega), isBlank_of_letter (by omega) (by omega)]
  · have hsame : c.toUpper = c := dif_neg h
    rw [hsame]

theorem isBlank_toLower (c : Char) : isBlank c.toLower = isBlank c := by
  by_cases h : 65 ≤ c.toNat ∧ c.toNat ≤ 90
  · have hlower := toNat_toLower h
    rw [isBlank_of_letter (by omega) (by omega), isBlank_of_letter (by omega) (by omega)]
  · have hsame : c.toLower = c := dif_neg h
    rw [hsame]

theorem toLower_toLower (c : Char) : c.toLower.toLower = c.toLower := by
  by_cases h : 65 ≤ c.toNat ∧ c.toNat ≤ 90
  · have hlower := toNat_toLower h
    have houtside : ¬(65 ≤ c.toLower.toNat ∧ c.toLower.toNat ≤ 90) := by omega
    exact dif_neg houtside
  · have hsame : c.toLower = c := dif_neg h
    rw [hsame, hsame]

theorem lower_append (a b : String) : lower (a ++ b) = lower a ++ lower b := by simp [lower]

theorem lower_lower (text : String) : lower (lower text) = lower text := by
  have hchars : Char.toLower ∘ Char.toLower = Char.toLower := funext toLower_toLower
  simp [lower, hchars]

theorem runs_map (hf : ∀ c, isBlank (f c) = isBlank c) (text : List Char) :
    runs (text.map f) = ((runs text).1.map f, (runs text).2.map (List.map f)) := by
  induction text with
  | nil => rfl
  | cons c rest ih =>
    rw [List.map_cons, runs, runs, ih, hf]
    cases isBlank c <;> rfl

theorem words_map (hf : ∀ c, isBlank (f c) = isBlank c) (text : String) :
    words (String.ofList (text.toList.map f)) = (words text).map fun word =>
      String.ofList (word.toList.map f) := by
  have hempty : (fun word : List Char => !word.isEmpty) ∘ List.map f =
      fun word => !word.isEmpty := by
    funext word
    simp
  rw [words, words, String.toList_ofList, runs_map hf]
  dsimp only
  rw [← List.map_cons, List.filter_map, hempty, List.map_map, List.map_map]
  refine List.map_congr_left fun word _ => ?_
  simp

theorem words_upper (text : String) : words (upper text) = (words text).map upper :=
  words_map isBlank_toUpper text

theorem words_lower (text : String) : words (lower text) = (words text).map lower :=
  words_map isBlank_toLower text

/-! ### The layout of words -/

/-- Whether a text is a word: it has a character, and no blank one. -/
def IsWord (word : String) : Prop := word ≠ "" ∧ ∀ c ∈ word.toList, isBlank c = false

/-- The texts that consist of some words, with blanks around them and between any two. -/
inductive Spaced : List String → List Char → Prop
  | nil : Spaced [] []
  | blank {c : Char} {ws : List String} {rest : List Char} (hc : isBlank c = true)
    (h : Spaced ws rest) : Spaced ws (c :: rest)
  | word {word : String} {ws : List String} {rest : List Char} (hword : IsWord word)
    (hend : ∀ c ∈ rest.head?, isBlank c = true) (h : Spaced ws rest) :
    Spaced (word :: ws) (word.toList ++ rest)

/-- Two texts with a blank between them have the words of both. -/
theorem Spaced.append (ha : Spaced ws a) (hc : isBlank c = true) (hb : Spaced vs b) :
    Spaced (ws ++ vs) (a ++ c :: b) := by
  induction ha with
  | nil => exact .blank hc hb
  | blank hd _ ih => exact .blank hd ih
  | @word word ws rest hword hend _ ih =>
    rw [List.append_assoc]
    refine .word hword ?_ ih
    cases rest with
    | nil => simpa using hc
    | cons d rest => exact hend

theorem spaced_singleton (h : IsWord word) : Spaced [word] word.toList := by
  have hword : Spaced [word] (word.toList ++ []) := .word h (by simp) .nil
  rwa [List.append_nil] at hword

theorem Spaced.chars (h : Spaced ws rest) (text : List Char) (hne : text ≠ [])
    (hword : ∀ c ∈ text, isBlank c = false) (hend : ∀ c ∈ rest.head?, isBlank c = true) :
    Spaced (String.ofList text :: ws) (text ++ rest) := by
  have hchars : IsWord (String.ofList text) := ⟨by simpa using hne, by simpa using hword⟩
  have hspaced := Spaced.word hchars hend h
  rwa [String.toList_ofList] at hspaced

/-- A character is a word of its own, or makes the word behind it longer. -/
theorem Spaced.exists_cons (h : Spaced ws rest) (hc : isBlank c = false) :
    ∃ ws, Spaced ws (c :: rest) := by
  have hchar : ∀ d ∈ [c], isBlank d = false := by simpa using hc
  cases h with
  | nil => exact ⟨_, Spaced.nil.chars [c] (by simp) hchar (by simp)⟩
  | blank hd h => exact ⟨_, (h.blank hd).chars [c] (by simp) hchar (by simpa using hd)⟩
  | @word word ws rest hword hend h =>
    exact ⟨_, h.chars (c :: word.toList) (by simp) (List.forall_mem_cons.mpr ⟨hc, hword.2⟩) hend⟩

/-- The words of a list of characters. -/
def wordsOf (text : List Char) : List String :=
  (((runs text).1 :: (runs text).2).filter (!·.isEmpty)).map String.ofList

theorem wordsOf_blank (h : isBlank c = true) : wordsOf (c :: rest) = wordsOf rest := by
  simp [wordsOf, runs, h]

theorem runs_append_blank (ha : ∀ c ∈ a, isBlank c = false)
    (hend : ∀ c ∈ rest.head?, isBlank c = true) : (runs (a ++ rest)).1 = a ∧
    wordsOf rest = ((runs (a ++ rest)).2.filter (!·.isEmpty)).map String.ofList := by
  induction a with
  | nil =>
    cases rest with
    | nil => exact ⟨rfl, rfl⟩
    | cons c rest =>
      have hc : isBlank c = true := hend c rfl
      simp [wordsOf, runs, hc]
  | cons c a ih =>
    obtain ⟨hc, ha⟩ := List.forall_mem_cons.mp ha
    obtain ⟨hfirst, hmore⟩ := ih ha
    rw [List.cons_append, runs, hc]
    exact ⟨congrArg (c :: ·) hfirst, hmore⟩

theorem wordsOf_word (h : IsWord word) (hend : ∀ c ∈ rest.head?, isBlank c = true) :
    wordsOf (word.toList ++ rest) = word :: wordsOf rest := by
  obtain ⟨hfirst, hmore⟩ := runs_append_blank h.2 hend
  have hne : word.toList.isEmpty = false := by simpa using h.1
  rw [wordsOf, hfirst, hmore, List.filter_cons, hne]
  simp

theorem Spaced.wordsOf (h : Spaced ws a) : wordsOf a = ws := by
  induction h with
  | nil => rfl
  | blank hc _ ih => rw [wordsOf_blank hc, ih]
  | word hword hend _ ih => rw [wordsOf_word hword hend, ih]

theorem exists_spaced (text : List Char) : ∃ ws, Spaced ws text := by
  induction text with
  | nil => exact ⟨[], .nil⟩
  | cons c rest ih =>
    obtain ⟨ws, h⟩ := ih
    cases hc : isBlank c with
    | true => exact ⟨ws, .blank hc h⟩
    | false => exact h.exists_cons hc

theorem words_eq_iff : words text = ws ↔ Spaced ws text.toList := by
  have hwords : words text = wordsOf text.toList := rfl
  rw [hwords]
  constructor
  · rintro rfl
    obtain ⟨ws, h⟩ := exists_spaced text.toList
    rwa [h.wordsOf]
  · exact Spaced.wordsOf

end SchemaQuery.Text
