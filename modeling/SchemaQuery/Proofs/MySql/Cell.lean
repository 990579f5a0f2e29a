import SchemaQuery.MySql.Cell
import SchemaQuery.Proofs.MySql.TextLiteral
import SchemaQuery.Proofs.Number.Numeral
import SchemaQuery.Proofs.Text.Words

/-! Cells that are read and written back.  A cell is sent as text, and its value is written as a
literal: as a number, when the type of the column has numbers and the text is one of them, and as
the same text in all other cases.  Types of floating-point numbers are left out, since a numeral can
lose digits in them. -/

namespace SchemaQuery.MySql

open Number

variable {type text : String} {value : Value} {n : Int}

/-! ### Cells that stand for numbers -/

/-- The word that a type begins with, in upper case. -/
def leadingWord (type : String) : String := Text.upper ((Text.words type).headD "")

theorem headD_words_upper (type : String) :
    (Text.words (Text.upper type)).headD "" = leadingWord type := by
  rw [Text.words_upper, leadingWord]
  cases Text.words type <;> rfl

/-- Whether the numbers of a type are without a sign. -/
def isUnsigned (type : String) : Bool := Text.occursIn "UNSIGNED" (Text.upper type)

/-- The numbers that cells stand for.  A type of whole numbers has those of 64 bits, with a sign or
without one; where there is no sign, none but a plus is read.  A type of truth values has the two
digits. -/
inductive StandsFor (type text : String) : Int → Prop
  | signed {n : Int} (hword : leadingWord type ∈ integerTypes) (hsign : isUnsigned type = false)
    (hn : IsNumeral text.toList n) (hbounds : -2 ^ 63 ≤ n ∧ n < 2 ^ 63) : StandsFor type text n
  | unsigned {n : Int} (hword : leadingWord type ∈ integerTypes) (hsign : isUnsigned type = true)
    (hn : IsNumeral text.toList n) (hplus : ∀ rest, text.toList ≠ '-' :: rest)
    (hbound : n < 2 ^ 64) :
    StandsFor type text n
  | truth {b : Bool} (hword : leadingWord type ∈ ["BOOLEAN", "BOOL"])
    (hb : text = if b then "1" else "0") : StandsFor type text (if b then 1 else 0)

theorem StandsFor.isNumeral (h : StandsFor type text n) : IsNumeral text.toList n := by
  cases h with
  | signed _ _ hn _ => exact hn
  | unsigned _ _ hn _ _ => exact hn
  | @truth b _ hb =>
    rw [hb]
    cases b
    · exact isNumeral_toString 0
    · exact isNumeral_toString 1

/-! ### Reading and writing -/

theorem readCell?_upper : readCell? (Text.upper type) text =
    if integerTypes.contains (leadingWord type) then
      if isUnsigned type then (readUInt64? text.toList).map .uint
      else (readInt64? text.toList).map .int
    else if leadingWord type = "BOOLEAN" ∨ leadingWord type = "BOOL" then readTruth? text
    else if leadingWord type = "FLOAT" ∨ leadingWord type = "DOUBLE" then
      (readBinary64? text.toList).map .float
    else none := by
  rw [readCell?, headD_words_upper]
  rfl

theorem readCell?_of_integer (hword : leadingWord type ∈ integerTypes) :
    readCell? (Text.upper type) text =
      if isUnsigned type then (readUInt64? text.toList).map .uint
      else (readInt64? text.toList).map .int := by
  rw [readCell?_upper, if_pos (List.contains_iff_mem.mpr hword)]

theorem readCell?_of_truth (hword : leadingWord type ∈ ["BOOLEAN", "BOOL"]) :
    readCell? (Text.upper type) text = readTruth? text := by
  have htruth : leadingWord type = "BOOLEAN" ∨ leadingWord type = "BOOL" := by simpa using hword
  have hother : integerTypes.contains (leadingWord type) = false := by
    obtain h | h := htruth <;> rw [h] <;> decide
  rw [readCell?_upper, hother, if_neg Bool.false_ne_true, if_pos htruth]

/-- A cell that stands for a number is read, and its value is written as that number. -/
theorem exists_literal_of_standsFor (h : StandsFor type text n) :
    ∃ value, readCell? (Text.upper type) text = some value ∧ literal value = toString n := by
  cases h with
  | signed hword hsign hn hbounds =>
    have hread : readInt64? text.toList = some (Int64.ofInt n) := by
      rw [readInt64?_eq_some_iff, Int64.toInt_ofInt_of_le hbounds.1 hbounds.2]
      exact hn
    refine ⟨.int (Int64.ofInt n), ?_, ?_⟩
    · rw [readCell?_of_integer hword, hsign, hread]
      rfl
    · rw [literal, Int64.toInt_ofInt_of_le hbounds.1 hbounds.2]
  | unsigned hword hsign hn hplus hbound =>
    obtain ⟨m, rfl⟩ := hn.exists_nat hplus
    have hm : (UInt64.ofNat m).toNat = m := UInt64.toNat_ofNat_of_lt' (by exact_mod_cast hbound)
    have hread : readUInt64? text.toList = some (UInt64.ofNat m) := by
      rw [readUInt64?_eq_some_iff, hm]
      exact ⟨hn, hplus⟩
    refine ⟨.uint (UInt64.ofNat m), ?_, ?_⟩
    · rw [readCell?_of_integer hword, hsign, hread]
      rfl
    · rw [literal, hm]
      rfl
  | @truth b hword hb =>
    refine ⟨.bool b, ?_, ?_⟩
    · rw [readCell?_of_truth hword, hb]
      cases b <;> rfl
    · cases b <;> rfl

/-- Only cells that stand for numbers are read, unless their type is one of floating-point
numbers. -/
theorem exists_standsFor (hfloat : leadingWord type ≠ "FLOAT")
    (hdouble : leadingWord type ≠ "DOUBLE") (h : readCell? (Text.upper type) text = some value) :
    ∃ n, StandsFor type text n := by
  by_cases hinteger : leadingWord type ∈ integerTypes
  · rw [readCell?_of_integer hinteger] at h
    cases hsign : isUnsigned type with
    | true =>
      rw [hsign, if_pos rfl] at h
      obtain ⟨u, hu, -⟩ := Option.map_eq_some_iff.mp h
      obtain ⟨hn, hplus⟩ := readUInt64?_eq_some_iff.mp hu
      exact ⟨_, .unsigned hinteger hsign hn hplus (by exact_mod_cast u.toNat_lt_size)⟩
    | false =>
      rw [hsign, if_neg Bool.false_ne_true] at h
      obtain ⟨i, hi, -⟩ := Option.map_eq_some_iff.mp h
      exact ⟨_, .signed hinteger hsign (readInt64?_eq_some_iff.mp hi) ⟨i.le_toInt, i.toInt_lt⟩⟩
  · by_cases htruth : leadingWord type ∈ ["BOOLEAN", "BOOL"]
    · rw [readCell?_of_truth htruth, readTruth?] at h
      split at h
      · next hzero => exact ⟨_, .truth (b := false) htruth hzero⟩
      · split at h
        · next hone => exact ⟨_, .truth (b := true) htruth hone⟩
        · cases h
    · have hnone : readCell? (Text.upper type) text = none := by
        rw [readCell?_upper, if_neg (by simpa using hinteger), if_neg (by simpa using htruth),
          if_neg (by simp [hfloat, hdouble])]
      rw [hnone] at h
      cases h

/-- A cell that is read and written back keeps its value.  It is written as the number that it
stands for, or else as a literal of its own text. -/
theorem literal_valueOfText (type text : String) (hfloat : leadingWord type ≠ "FLOAT")
    (hdouble : leadingWord type ≠ "DOUBLE") :
    (∃ n, StandsFor type text n ∧ IsNumeral text.toList n ∧
      IsNumeral (literal (valueOfText type text)).toList n) ∨
    (∀ n, ¬StandsFor type text n) ∧ textOf? (literal (valueOfText type text)) = some text := by
  by_cases hnumber : ∃ n, StandsFor type text n
  · obtain ⟨n, hn⟩ := hnumber
    obtain ⟨value, hread, hliteral⟩ := exists_literal_of_standsFor hn
    refine .inl ⟨n, hn, hn.isNumeral, ?_⟩
    rw [valueOfText, hread, Option.getD_some, hliteral]
    exact isNumeral_toString n
  · have hnone : readCell? (Text.upper type) text = none := by
      by_contra hsome
      obtain ⟨value, hread⟩ := Option.ne_none_iff_exists'.mp hsome
      exact hnumber (exists_standsFor hfloat hdouble hread)
    refine .inr ⟨not_exists.mp hnumber, ?_⟩
    rw [valueOfText, hnone, Option.getD_none]
    exact textOf?_textLiteral text

/-- The cells of a type without a sign, and the literals of cells at the bounds of 64 bits, with
signs and leading zeros, and of no number. -/
theorem literal_valueOfText_bounds :
    let written (cell : String × String) : String := literal (valueOfText cell.1 cell.2)
    (∀ text, (∃ n, StandsFor "BigInt Unsigned" text n ∧ IsNumeral text.toList n ∧
        IsNumeral (written ("BigInt Unsigned", text)).toList n) ∨
      (∀ n, ¬StandsFor "BigInt Unsigned" text n) ∧
      textOf? (written ("BigInt Unsigned", text)) = some text) ∧
    [("bigint", "-9223372036854775808"), ("bigint", "9223372036854775808"),
      ("BigInt Unsigned", "+18446744073709551615"), ("BigInt Unsigned", "18446744073709551616"),
      ("BigInt Unsigned", "-0"), ("int", "-007"), ("bool", "1"), ("bool", "01"),
      ("text", "it's")].map written =
        ["-9223372036854775808", "'9223372036854775808'", "18446744073709551615",
          "'18446744073709551616'", "'-0'", "-7", "1", "'01'", "'it\\'s'"] := by
  intro written
  exact ⟨fun text => literal_valueOfText "BigInt Unsigned" text (by decide) (by decide),
    by decide +kernel⟩

end SchemaQuery.MySql
