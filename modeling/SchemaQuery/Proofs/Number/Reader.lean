import Mathlib.Data.Nat.Digits.Defs
import SchemaQuery.Number.Reader

/-! Reading the digits of a number gives the number. -/

namespace SchemaQuery.Number

theorem digitsValue_cons (value : Nat) (c : Char) (rest : List Char) :
    digitsValue value (c :: rest) = digitsValue (value * 10 + (c.toNat - '0'.toNat)) rest := by
  -- the character code of the zero is not computed otherwise
  with_unfolding_all rfl

theorem digitsValue_eq (value : Nat) (text : List Char) :
    digitsValue value text = Nat.ofDigitChars 10 text value := by
  induction text generalizing value with
  | nil => rfl
  | cons c rest ih => rw [digitsValue_cons, ih, Nat.ofDigitChars_cons, Nat.mul_comm]

theorem isDigit_of_mem_toDigits {n : Nat} {c : Char} (h : c ∈ Nat.toDigits 10 n) :
    c.isDigit = true :=
  Nat.isDigit_of_mem_toDigits (by decide) (by decide) h

theorem not_mem_toDigits {c : Char} (h : c.isDigit = false) (n : Nat) : c ∉ Nat.toDigits 10 n :=
  fun hc => absurd (isDigit_of_mem_toDigits hc) (by simp [h])

theorem readDigits?_toDigits (n : Nat) : readDigits? (Nat.toDigits 10 n) = some n := by
  have hdigits : (Nat.toDigits 10 n).all Char.isDigit = true :=
    List.all_eq_true.mpr fun c hc => isDigit_of_mem_toDigits hc
  simp [readDigits?, digitsValue_eq, hdigits, Nat.toDigits_ne_nil, Nat.ofDigitChars_ten_toDigits]

theorem readNat?_toDigits {most n : Nat} (h : n ≤ most) :
    readNat? most (Nat.toDigits 10 n) = some n := by
  unfold readNat?
  split
  next rest hsign =>
    have hplus : '+'.isDigit = true := isDigit_of_mem_toDigits (n := n) (by simp [hsign])
    exact absurd hplus (by decide)
  next => simp [readDigits?_toDigits, h]

theorem readUInt16?_toDigits (n : UInt16) : readUInt16? (Nat.toDigits 10 n.toNat) = some n := by
  rw [readUInt16?, readNat?_toDigits (Nat.le_sub_one_of_lt n.toNat_lt_size)]
  simp

end SchemaQuery.Number
