import SchemaQuery.Proofs.MySql.Scan
import SchemaQuery.Proofs.Number.Reader
import SchemaQuery.Proofs.Text.Cut
import SchemaQuery.Proofs.Value

/-! Where an identifier or a literal ends.  In front of any text that does not go on with a word or
a mark, each of them is told from that text: two identifiers, or two literals, that begin the same
text are the same.  So no name and no value can be written in a way that looks like another one. -/

namespace SchemaQuery.MySql

variable {a b r s : List Char} {p : Char → Bool}

/-! ### Runs of characters -/

/-- Whether a text does not begin with a character of a class. -/
def BeginsOutside (p : Char → Bool) (text : List Char) : Prop := ∀ c ∈ text.head?, p c = false

theorem beginsOutside_cons {c : Char} (h : p c = false) : BeginsOutside p (c :: r) := by
  simpa [BeginsOutside] using h

theorem takeWhile_append_of_begins (ha : ∀ c ∈ a, p c = true) (hr : BeginsOutside p r) :
    (a ++ r).takeWhile p = a ∧ (a ++ r).dropWhile p = r := by
  rw [List.takeWhile_append_of_pos ha, List.dropWhile_append_of_pos ha]
  cases r with
  | nil => simp
  | cons c rest =>
    have hc : p c = false := hr c rfl
    simp [hc]

/-- A run of characters of a class ends where the next character is outside it. -/
theorem run_append_inj (ha : ∀ c ∈ a, p c = true) (hb : ∀ c ∈ b, p c = true)
    (hr : BeginsOutside p r) (hs : BeginsOutside p s) (h : a ++ r = b ++ s) : a = b ∧ r = s := by
  obtain ⟨hatake, hadrop⟩ := takeWhile_append_of_begins ha hr
  obtain ⟨hbtake, hbdrop⟩ := takeWhile_append_of_begins hb hs
  rw [h] at hatake hadrop
  exact ⟨hatake.symm.trans hbtake, hadrop.symm.trans hbdrop⟩

/-! ### Identifiers -/

theorem doubledMarks_cons (c : Char) (name : List Char) :
    doubledMarks (c :: name) = (if c = '\x60' then ['\x60', '\x60'] else [c]) ++
      doubledMarks name := by
  rw [doubledMarks, List.flatMap_cons]
  split
  · next hc => rw [hc]; rfl
  · rfl

/-- A quoted name ends at the first backtick that no other one follows. -/
theorem doubledMarks_append_inj (hr : BeginsOutside (· == '\x60') r)
    (hs : BeginsOutside (· == '\x60') s)
    (h : doubledMarks a ++ '\x60' :: r = doubledMarks b ++ '\x60' :: s) : a = b ∧ r = s := by
  -- where one name ends and the other goes on with a doubled mark, the rest would begin with a mark
  have hmark : ∀ {text rest : List Char}, BeginsOutside (· == '\x60') rest →
      rest ≠ '\x60' :: text := by
    rintro text rest hrest rfl
    simpa using hrest '\x60' rfl
  induction a generalizing b with
  | nil =>
    cases b with
    | nil => exact ⟨rfl, (List.cons.inj h).2⟩
    | cons d b =>
      rw [doubledMarks_cons] at h
      split at h
      · exact absurd (List.cons.inj h).2 (hmark hr)
      · next hd => exact absurd (List.cons.inj h).1.symm hd
  | cons c a ih =>
    cases b with
    | nil =>
      rw [doubledMarks_cons] at h
      split at h
      · exact absurd (List.cons.inj h).2.symm (hmark hs)
      · next hc => exact absurd (List.cons.inj h).1 hc
    | cons d b =>
      rw [doubledMarks_cons, doubledMarks_cons] at h
      split at h <;> split at h
      · next hc hd =>
        obtain ⟨hab, hrs⟩ := ih (List.cons.inj (List.cons.inj h).2).2
        exact ⟨by rw [hc, hd, hab], hrs⟩
      · next hc hd => exact absurd (List.cons.inj h).1.symm hd
      · next hc hd => exact absurd (List.cons.inj h).1 hc
      · next hc hd =>
        obtain ⟨hcd, h⟩ := List.cons.inj h
        obtain ⟨hab, hrs⟩ := ih h
        exact ⟨by rw [hcd, hab], hrs⟩

/-- A character that can go on with the name of a column. -/
def isNameChar (c : Char) : Bool := isWordChar c || c == '\x60'

theorem BeginsOutside.of_imp {q : Char → Bool} (h : BeginsOutside q r)
    (hpq : ∀ c, p c = true → q c = true) : BeginsOutside p r := by
  intro c hc
  have hq := h c hc
  cases hp : p c with
  | false => rfl
  | true => rw [hpq c hp] at hq; exact hq

theorem isWordChar_of_isBare {name : String} (h : isBare name = true) :
    ∀ c ∈ name.toList, isWordChar c = true := by
  simp only [isBare, Bool.and_eq_true, List.all_eq_true] at h
  exact h.1.2

theorem exists_cons_of_isBare {name : String} (h : isBare name = true) :
    ∃ c rest, name.toList = c :: rest ∧ isWordChar c = true := by
  cases hname : name.toList with
  | nil =>
    rw [String.toList_eq_nil_iff.mp hname] at h
    cases h
  | cons c rest => exact ⟨c, rest, rfl, isWordChar_of_isBare h c (by simp [hname])⟩

theorem bare_append_ne_quoted {name other : String} (h : isBare name = true) :
    name.toList ++ r ≠ (quoteIdentifier other).toList ++ s := by
  obtain ⟨c, rest, hname, hc⟩ := exists_cons_of_isBare h
  rw [hname, toList_quoteIdentifier]
  intro heq
  have hmark : c = '\x60' := (List.cons.inj heq).1
  rw [hmark] at hc
  exact absurd hc (by decide)

theorem quoteIdentifier_append_inj {name other : String} (hr : BeginsOutside (· == '\x60') r)
    (hs : BeginsOutside (· == '\x60') s)
    (h : (quoteIdentifier name).toList ++ r = (quoteIdentifier other).toList ++ s) :
    name = other ∧ r = s := by
  rw [toList_quoteIdentifier, toList_quoteIdentifier, List.cons_append, List.cons_append,
    List.append_assoc, List.append_assoc] at h
  obtain ⟨hname, hrest⟩ := doubledMarks_append_inj hr hs (List.cons.inj h).2
  exact ⟨String.toList_inj.mp hname, hrest⟩

theorem columnIdentifier_append_inj {name other : String} (hr : BeginsOutside isNameChar r)
    (hs : BeginsOutside isNameChar s)
    (h : (columnIdentifier name).toList ++ r = (columnIdentifier other).toList ++ s) :
    name = other ∧ r = s := by
  have hword : ∀ {rest}, BeginsOutside isNameChar rest → BeginsOutside isWordChar rest :=
    fun hrest => hrest.of_imp fun c hc => by simp [isNameChar, hc]
  have hmark : ∀ {rest}, BeginsOutside isNameChar rest → BeginsOutside (· == '\x60') rest :=
    fun hrest => hrest.of_imp fun c hc => by simp [isNameChar, hc]
  rw [columnIdentifier, columnIdentifier] at h
  split at h <;> split at h
  · next hname hother =>
    obtain ⟨heq, hrest⟩ := run_append_inj (isWordChar_of_isBare hname) (isWordChar_of_isBare hother)
      (hword hr) (hword hs) h
    exact ⟨String.toList_inj.mp heq, hrest⟩
  · next hname _ => exact absurd h (bare_append_ne_quoted hname)
  · next _ hother => exact absurd h.symm (bare_append_ne_quoted hother)
  · exact quoteIdentifier_append_inj (hmark hr) (hmark hs) h

theorem toList_qualifiedColumn {table column : String} (h : hasPoint column = false) :
    (qualifiedColumn ⟨some table, column⟩).toList =
      (columnIdentifier table).toList ++ '.' :: (columnIdentifier column).toList := by
  have hcut : Text.splitFirst? '.' column = none := by
    rw [Text.splitFirst?, Text.cutFirst_eq_none_iff.mpr (by simpa [hasPoint] using h)]
    rfl
  rw [qualifiedColumn, hcut, String.toList_append, String.toList_append, List.append_assoc]
  rfl

/-- The columns of tables, by names without a point, are told by their texts. -/
theorem qualifiedColumn_append_inj {table column table' column' : String}
    (h : hasPoint column = false) (h' : hasPoint column' = false) (hr : BeginsOutside isNameChar r)
    (hs : BeginsOutside isNameChar s) (heq : (qualifiedColumn ⟨some table, column⟩).toList ++ r =
      (qualifiedColumn ⟨some table', column'⟩).toList ++ s) :
    table = table' ∧ column = column' ∧ r = s := by
  rw [toList_qualifiedColumn h, toList_qualifiedColumn h', List.append_assoc,
    List.append_assoc] at heq
  obtain ⟨htable, heq⟩ := columnIdentifier_append_inj (beginsOutside_cons (by decide))
    (beginsOutside_cons (by decide)) heq
  obtain ⟨hcolumn, hrest⟩ := columnIdentifier_append_inj hr hs (List.cons.inj heq).2
  exact ⟨htable, hcolumn, hrest⟩

/-! ### Literals -/

/-- What a character stands for after a backslash. -/
def escaped : Char → Char
  | 'n' => '\n'
  | 'r' => '\r'
  | '0' => '\x00'
  | 'Z' => '\x1a'
  | c => c

theorem escapeChar_cases (c : Char) :
    (∃ d, escapeChar c = ['\\', d] ∧ escaped d = c) ∨ escapeChar c = [c] ∧ c ≠ '\'' ∧ c ≠ '\\' := by
  unfold escapeChar
  split
  iterate 7 exact .inl ⟨_, rfl, rfl⟩
  next hslash hquote _ _ _ _ _ => exact .inr ⟨rfl, hquote, hslash⟩

theorem escapeChar_append_ne (c : Char) : escapeChar c ++ s ≠ '\'' :: r := by
  intro h
  obtain ⟨d, hc, -⟩ | ⟨hc, hquote, -⟩ := escapeChar_cases c
  · rw [hc] at h
    exact absurd (List.cons.inj h).1 (by decide)
  · rw [hc] at h
    exact hquote (List.cons.inj h).1

theorem escapeChar_append_inj {c d : Char} (h : escapeChar c ++ r = escapeChar d ++ s) :
    c = d ∧ r = s := by
  obtain ⟨c', hc, hc'⟩ | ⟨hc, -, hslash⟩ := escapeChar_cases c <;>
    obtain ⟨d', hd, hd'⟩ | ⟨hd, -, hslash'⟩ := escapeChar_cases d <;> rw [hc, hd] at h
  · obtain ⟨heq, hrest⟩ := List.cons.inj (List.cons.inj h).2
    exact ⟨by rw [← hc', ← hd', heq], hrest⟩
  · exact absurd (List.cons.inj h).1.symm hslash'
  · exact absurd (List.cons.inj h).1 hslash
  · exact List.cons.inj h

/-- A text between quotes ends at the first quote without a backslash. -/
theorem escape_append_inj
    (h : a.flatMap escapeChar ++ '\'' :: r = b.flatMap escapeChar ++ '\'' :: s) :
    a = b ∧ r = s := by
  induction a generalizing b with
  | nil =>
    cases b with
    | nil => exact ⟨rfl, (List.cons.inj h).2⟩
    | cons d b =>
      rw [List.flatMap_cons, List.append_assoc] at h
      exact absurd h.symm (escapeChar_append_ne d)
  | cons c a ih =>
    rw [List.flatMap_cons, List.append_assoc] at h
    cases b with
    | nil => exact absurd h (escapeChar_append_ne c)
    | cons d b =>
      rw [List.flatMap_cons, List.append_assoc] at h
      obtain ⟨hcd, h⟩ := escapeChar_append_inj h
      obtain ⟨hab, hrest⟩ := ih h
      exact ⟨by rw [hcd, hab], hrest⟩

theorem digit_inj : ∀ n < 16, ∀ m < 16, Text.Hex.digit n = Text.Hex.digit m → n = m := by decide

theorem digit_ne_quote : ∀ n < 16, Text.Hex.digit n ≠ '\'' := by decide

theorem toNat_div_lt (byte : UInt8) : byte.toNat / 16 < 16 := by
  have hbyte := byte.toNat_lt
  omega

theorem toNat_mod_lt (byte : UInt8) : byte.toNat % 16 < 16 := Nat.mod_lt _ (by decide)

/-- Digits for bytes end at the quote. -/
theorem ofBytes_append_inj {data data' : List UInt8}
    (h : data.flatMap Text.Hex.ofByte ++ '\'' :: r = data'.flatMap Text.Hex.ofByte ++ '\'' :: s) :
    data = data' ∧ r = s := by
  induction data generalizing data' with
  | nil =>
    cases data' with
    | nil => exact ⟨rfl, (List.cons.inj h).2⟩
    | cons byte' data' =>
      exact absurd (List.cons.inj h).1.symm (digit_ne_quote _ (toNat_div_lt byte'))
  | cons byte data ih =>
    cases data' with
    | nil => exact absurd (List.cons.inj h).1 (digit_ne_quote _ (toNat_div_lt byte))
    | cons byte' data' =>
      obtain ⟨hhigh, h⟩ := List.cons.inj h
      obtain ⟨hlow, h⟩ := List.cons.inj h
      obtain ⟨hdata, hrest⟩ := ih h
      have hdiv := digit_inj _ (toNat_div_lt byte) _ (toNat_div_lt byte') hhigh
      have hmod := digit_inj _ (toNat_mod_lt byte) _ (toNat_mod_lt byte') hlow
      have hbyte : byte = byte' := UInt8.toNat_inj.mp (by omega)
      exact ⟨by rw [hbyte, hdata], hrest⟩

theorem toDigits_append_ne {n : Nat} {c : Char} (hc : c.isDigit = false) :
    Nat.toDigits 10 n ++ r ≠ c :: s := by
  intro h
  cases hdigits : Nat.toDigits 10 n with
  | nil => exact Nat.toDigits_ne_nil hdigits
  | cons d digits =>
    rw [hdigits] at h
    have hd := Number.isDigit_of_mem_toDigits (n := n) (c := d) (by simp [hdigits])
    rw [(List.cons.inj h).1, hc] at hd
    cases hd

theorem toDigits_append_inj {n m : Nat} (hr : BeginsOutside Char.isDigit r)
    (hs : BeginsOutside Char.isDigit s) (h : Nat.toDigits 10 n ++ r = Nat.toDigits 10 m ++ s) :
    n = m ∧ r = s := by
  obtain ⟨hdigits, hrest⟩ := run_append_inj (fun _ => Number.isDigit_of_mem_toDigits)
    (fun _ => Number.isDigit_of_mem_toDigits) hr hs h
  have hnumber := congrArg (Nat.ofDigitChars 10 · 0) hdigits
  simp only [Nat.ofDigitChars_ten_toDigits] at hnumber
  exact ⟨hnumber, hrest⟩

/-- A text that neither a name nor a number goes on with: it is empty, or begins with the blank in
front of a symbol, the comma between values or a closing bracket. -/
def Stops (text : List Char) : Prop := ∀ c ∈ text.head?, c = ' ' ∨ c = ',' ∨ c = ')'

theorem Stops.beginsOutside (hr : Stops r) (hp : (p ' ' || p ',' || p ')') = false) :
    BeginsOutside p r := by
  simp only [Bool.or_eq_false_iff] at hp
  intro c hc
  obtain rfl | rfl | rfl := hr c hc
  · exact hp.1.1
  · exact hp.1.2
  · exact hp.2

/-- The text of a value other than a float, with whole numbers and truth values kept as unsigned
numbers where they can be. -/
inductive Spells : Value → List Char → Prop
  | null : Spells .null ['N', 'U', 'L', 'L']
  | natural (n : UInt64) : Spells (.uint n) (Nat.toDigits 10 n.toNat)
  | negative {n : Int64} {k : Nat} (h : n.toInt = Int.negSucc k) :
    Spells (.int n) ('-' :: Nat.toDigits 10 (k + 1))
  | text (s : String) : Spells (.text s) ('\'' :: (s.toList.flatMap escapeChar ++ ['\'']))
  | bytes (data : List UInt8) :
    Spells (.bytes data) ('X' :: '\'' :: (data.flatMap Text.Hex.ofByte ++ ['\'']))

variable {v w : Value}

/-- Literals are told by their first character, and those of a kind by where they end. -/
theorem Spells.append_inj (hv : Spells v a) (hw : Spells w b) (hr : Stops r) (hs : Stops s)
    (h : a ++ r = b ++ s) : v = w ∧ r = s := by
  -- only numbers need to know what follows: every other literal brings its own end
  have hdigits : ∀ {n m : Nat}, Nat.toDigits 10 n ++ r = Nat.toDigits 10 m ++ s → n = m ∧ r = s :=
    toDigits_append_inj (hr.beginsOutside (by decide)) (hs.beginsOutside (by decide))
  cases hv with
  | null =>
    cases hw with
    | null => exact ⟨rfl, List.append_cancel_left h⟩
    | natural m => exact absurd h.symm (toDigits_append_ne (by decide))
    | _ => simp at h
  | natural n =>
    cases hw with
    | natural m =>
      obtain ⟨hnm, hrest⟩ := hdigits h
      exact ⟨by rw [UInt64.toNat_inj.mp hnm], hrest⟩
    | _ => exact absurd h (toDigits_append_ne (by decide))
  | @negative n k hn =>
    cases hw with
    | natural m => exact absurd h.symm (toDigits_append_ne (by decide))
    | @negative m l hm =>
      obtain ⟨hkl, hrest⟩ := hdigits (List.cons.inj h).2
      have hnm : n = m := by rw [← Int64.toInt_inj, hn, hm, Nat.succ.inj hkl]
      exact ⟨by rw [hnm], hrest⟩
    | _ => simp at h
  | text t =>
    cases hw with
    | natural m => exact absurd h.symm (toDigits_append_ne (by decide))
    | text u =>
      obtain ⟨htu, hrest⟩ := escape_append_inj (r := r) (s := s) (by simpa using h)
      exact ⟨by rw [String.toList_inj.mp htu], hrest⟩
    | _ => simp at h
  | bytes data =>
    cases hw with
    | natural m => exact absurd h.symm (toDigits_append_ne (by decide))
    | bytes data' =>
      obtain ⟨hdata, hrest⟩ := ofBytes_append_inj (r := r) (s := s) (by simpa using h)
      exact ⟨by rw [hdata], hrest⟩
    | _ => simp at h

theorem Spells.append_ne_bracket (hv : Spells v a) : a ++ r ≠ ')' :: s := by
  cases hv with
  | natural n => exact toDigits_append_ne (by decide)
  | _ => simp

theorem literal_unsigned (v : Value) : literal v.unsigned = literal v := by
  cases v with
  | int n =>
    rw [Value.unsigned]
    split
    · next hn =>
      rw [literal, literal, ← Value.toInt_toUInt64 hn]
      rfl
    · rfl
  | _ => rfl

theorem literal_plain (v : Value) : literal v.plain = literal v := by
  rw [Value.plain, literal_unsigned]
  cases v with
  | bool b => cases b <;> rfl
  | _ => rfl

theorem spells_literal (hv : v.isFloat = false) : Spells v.plain (literal v).toList := by
  have hnatural : ∀ n : UInt64, Spells (.uint n) (literal (.uint n)).toList := fun n => by
    simpa [literal] using Spells.natural n
  have hint : ∀ n : Int64, Spells (Value.int n).unsigned (literal (.int n)).toList := by
    intro n
    rw [← literal_unsigned, Value.unsigned]
    split
    · exact hnatural _
    · next hn =>
      obtain ⟨k, hk⟩ := Int.eq_negSucc_of_lt_zero
        (show n.toInt < 0 from Int64.lt_iff_toInt_lt.mp (Int64.not_le.mp hn))
      have hminus : toString (Int.negSucc k) = "-" ++ toString (k + 1) := rfl
      have htext : (literal (.int n)).toList = '-' :: Nat.toDigits 10 (k + 1) := by
        rw [literal, hk, hminus]
        simp
      rw [htext]
      exact .negative hk
  cases v with
  | null => exact .null
  | bool b => cases b <;> exact hint _
  | int n => exact hint n
  | uint n => exact hnatural n
  | float x => cases hv
  | text s =>
    rw [literal, toList_textLiteral]
    exact .text s
  | bytes data =>
    rw [literal, toList_bytesLiteral]
    exact .bytes data

/-! ### What a text begins with -/

/-- The first character of a text that is not part of a word. -/
def sign (text : List Char) : Option Char := (text.dropWhile isWordChar).head?

theorem sign_append (ha : ∀ c ∈ a, isWordChar c = true) : sign (a ++ r) = sign r := by
  rw [sign, List.dropWhile_append_of_pos ha, sign]

theorem sign_cons {c : Char} (hc : isWordChar c = false) : sign (c :: r) = some c := by
  rw [sign, List.dropWhile_cons_of_neg (by simp [hc])]
  rfl

/-- The sorts of texts that an expression begins with. -/
inductive Opening
  | name
  | literal
  | bracket
deriving DecidableEq

/-- The sort of text with such a first character that is not part of a word. -/
def Opening.ofSign : Option Char → Opening
  | some '.' | some '\x60' => .name
  | some '(' => .bracket
  | _ => .literal

/-- A name is followed by a point, or it is quoted. -/
theorem opening_column {table column : String} (h : hasPoint column = false) :
    Opening.ofSign (sign ((qualifiedColumn ⟨some table, column⟩).toList ++ r)) = .name := by
  rw [toList_qualifiedColumn h, columnIdentifier]
  split
  · next hbare =>
    rw [List.append_assoc, sign_append (isWordChar_of_isBare hbare), List.cons_append,
      sign_cons (by decide)]
    rfl
  · rw [toList_quoteIdentifier, List.append_assoc, List.append_assoc, List.cons_append,
      sign_cons (by decide)]
    rfl

theorem Stops.opening (hr : Stops r) : Opening.ofSign (sign r) = .literal := by
  cases r with
  | nil => rfl
  | cons c rest =>
    obtain rfl | rfl | rfl := hr c rfl
    all_goals
      rw [sign_cons (by decide)]
      rfl

theorem Spells.opening (hv : Spells v a) (hr : Stops r) :
    Opening.ofSign (sign (a ++ r)) = .literal := by
  cases hv with
  | null =>
    have hword : ∀ c ∈ ['N', 'U', 'L', 'L'], isWordChar c = true := List.all_eq_true.mp rfl
    rw [sign_append hword]
    exact hr.opening
  | natural n =>
    have hdigits : ∀ c ∈ Nat.toDigits 10 n.toNat, isWordChar c = true := fun c hc => by
      simp [isWordChar, Char.isAlphanum, Number.isDigit_of_mem_toDigits hc]
    rw [sign_append hdigits]
    exact hr.opening
  | negative hn =>
    rw [List.cons_append, sign_cons (by decide)]
    rfl
  | text s =>
    rw [List.cons_append, sign_cons (by decide)]
    rfl
  | bytes data => rfl

theorem opening_bracket : Opening.ofSign (sign ('(' :: r)) = .bracket := by
  rw [sign_cons (by decide)]
  rfl

end SchemaQuery.MySql
