import SchemaQuery.Proofs.Number.Reader

/-! Decimal numerals.  The readers of whole numbers accept exactly the numerals of the numbers
within their bounds, however many digits these have; a number is written as a numeral of itself. -/

namespace SchemaQuery.Number

variable {text rest : List Char} {n least most : Int} {m bound : Nat}

/-- Digits, of which there is at least one, and the number that they make up. -/
structure AreDigits (text : List Char) (n : Nat) : Prop where
  nonempty : text ≠ []
  digits : ∀ c ∈ text, c.isDigit = true
  value : Nat.ofDigitChars 10 text 0 = n

/-- A decimal numeral of a whole number: digits with or without a sign. -/
inductive IsNumeral : List Char → Int → Prop
  | bare {text : List Char} {n : Nat} (h : AreDigits text n) : IsNumeral text n
  | plus {text : List Char} {n : Nat} (h : AreDigits text n) : IsNumeral ('+' :: text) n
  | minus {text : List Char} {n : Nat} (h : AreDigits text n) : IsNumeral ('-' :: text) (-n)

/-- Digits do not begin with a sign. -/
theorem AreDigits.isDigit_head {c : Char} (h : AreDigits (c :: rest) m) : c.isDigit = true :=
  h.digits c List.mem_cons_self

theorem isNumeral_plus_iff :
    IsNumeral ('+' :: rest) n ↔ ∃ m : Nat, AreDigits rest m ∧ (m : Int) = n := by
  constructor
  · intro h
    cases h with
    | bare h => cases h.isDigit_head
    | plus h => exact ⟨_, h, rfl⟩
  · rintro ⟨m, h, rfl⟩
    exact .plus h

theorem isNumeral_minus_iff :
    IsNumeral ('-' :: rest) n ↔ ∃ m : Nat, AreDigits rest m ∧ -(m : Int) = n := by
  constructor
  · intro h
    cases h with
    | bare h => cases h.isDigit_head
    | minus h => exact ⟨_, h, rfl⟩
  · rintro ⟨m, h, rfl⟩
    exact .minus h

theorem isNumeral_bare_iff (hplus : ∀ rest, text ≠ '+' :: rest)
    (hminus : ∀ rest, text ≠ '-' :: rest) :
    IsNumeral text n ↔ ∃ m : Nat, AreDigits text m ∧ (m : Int) = n := by
  constructor
  · intro h
    cases h with
    | bare h => exact ⟨_, h, rfl⟩
    | plus => exact absurd rfl (hplus _)
    | minus => exact absurd rfl (hminus _)
  · rintro ⟨m, h, rfl⟩
    exact .bare h

theorem IsNumeral.exists_nat (h : IsNumeral text n) (hplus : ∀ rest, text ≠ '-' :: rest) :
    ∃ m : Nat, n = m := by
  cases h with
  | bare => exact ⟨_, rfl⟩
  | plus => exact ⟨_, rfl⟩
  | minus => exact absurd rfl (hplus _)

/-! ### Reading numerals -/

theorem readDigits?_eq_some_iff : readDigits? text = some m ↔ AreDigits text m := by
  have hshape : (!text.isEmpty && text.all Char.isDigit) = true ↔
      text ≠ [] ∧ ∀ c ∈ text, c.isDigit = true := by
    simp
  rw [readDigits?, digitsValue_eq]
  split
  · next h =>
      exact ⟨fun hm => ⟨(hshape.mp h).1, (hshape.mp h).2, Option.some.inj hm⟩,
        fun hm => by rw [hm.value]⟩
  · next h =>
    refine ⟨fun hm => ?_, fun hm => absurd (hshape.mpr ⟨hm.nonempty, hm.digits⟩) h⟩
    cases hm

theorem readInt?_eq_some_iff :
    readInt? least most text = some n ↔ IsNumeral text n ∧ least ≤ n ∧ n ≤ most := by
  unfold readInt?
  simp only [Option.filter_eq_some_iff, Bool.and_eq_true, decide_eq_true_eq]
  refine and_congr_left fun _ => ?_
  split
  · simp [isNumeral_plus_iff, ← readDigits?_eq_some_iff]
  · simp [isNumeral_minus_iff, ← readDigits?_eq_some_iff, Option.bind_eq_some_iff]
  · next hplus hminus => simp [isNumeral_bare_iff hplus hminus, ← readDigits?_eq_some_iff]

/-- A number that cannot be negative is read without a minus sign, even in front of a zero. -/
theorem readNat?_eq_some_iff :
    readNat? bound text = some m ↔ IsNumeral text m ∧ (∀ rest, text ≠ '-' :: rest) ∧ m ≤ bound := by
  unfold readNat?
  simp only [Option.filter_eq_some_iff, decide_eq_true_eq, ← and_assoc, readDigits?_eq_some_iff]
  refine and_congr_left fun _ => ?_
  split
  · simp [isNumeral_plus_iff]
  · next hplus =>
    constructor
    · intro h
      refine ⟨.bare h, ?_⟩
      rintro rest rfl
      cases h.isDigit_head
    · rintro ⟨h, hminus⟩
      obtain ⟨_, hdigits, hm⟩ := (isNumeral_bare_iff hplus hminus).mp h
      rwa [← Int.ofNat.inj hm]

theorem readInt64?_eq_some_iff {i : Int64} : readInt64? text = some i ↔ IsNumeral text i.toInt := by
  rw [readInt64?, Option.map_eq_some_iff]
  simp only [readInt?_eq_some_iff]
  constructor
  · rintro ⟨n, ⟨hn, hleast, hmost⟩, rfl⟩
    rwa [Int64.toInt_ofInt_of_le hleast (Int.lt_add_one_of_le hmost)]
  · intro h
    exact ⟨i.toInt, ⟨h, i.minValue_le_toInt, i.toInt_le⟩, Int64.ofInt_toInt i⟩

theorem readUInt64?_eq_some_iff {u : UInt64} :
    readUInt64? text = some u ↔ IsNumeral text u.toNat ∧ ∀ rest, text ≠ '-' :: rest := by
  rw [readUInt64?, Option.map_eq_some_iff]
  simp only [readNat?_eq_some_iff]
  constructor
  · rintro ⟨m, ⟨hm, hplus, hbound⟩, rfl⟩
    have hsize : m < UInt64.size := Nat.lt_of_le_sub_one (by decide) hbound
    rw [UInt64.toNat_ofNat_of_lt' hsize]
    exact ⟨hm, hplus⟩
  · rintro ⟨h, hplus⟩
    exact ⟨u.toNat, ⟨h, hplus, Nat.le_sub_one_of_lt u.toNat_lt_size⟩, UInt64.ofNat_toNat⟩

/-! ### Writing numerals -/

theorem areDigits_toDigits (m : Nat) : AreDigits (Nat.toDigits 10 m) m :=
  ⟨Nat.toDigits_ne_nil, fun _ => isDigit_of_mem_toDigits, Nat.ofDigitChars_ten_toDigits⟩

theorem isNumeral_toString (n : Int) : IsNumeral (toString n).toList n := by
  have hrepr : toString n = n.repr := rfl
  rw [hrepr, Int.repr_eq_if]
  split
  · next h =>
    rw [Nat.toList_repr]
    have hn := IsNumeral.bare (areDigits_toDigits n.toNat)
    rwa [Int.toNat_of_nonneg h] at hn
  · next h =>
    rw [String.toList_append, Nat.toList_repr]
    have hn := IsNumeral.minus (areDigits_toDigits (-n).toNat)
    rwa [Int.toNat_of_nonneg (by omega), Int.neg_neg] at hn

end SchemaQuery.Number
