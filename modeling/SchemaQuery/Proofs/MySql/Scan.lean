import Mathlib.Data.List.Chain
import SchemaQuery.Statement

/-! How the engine reads the quotes of a statement.  A scan goes through the text and tells what
stands between quotes from what stands outside them.  A piece of a statement is clean when a scan
that enters it outside quotes leaves it outside quotes, having met nothing there that ends the
statement, opens a comment or could do so together with what follows; clean pieces can be put
together. -/

namespace SchemaQuery.MySql

/-- Where a scan is: outside quotes, in an identifier between backticks, in a text between single
quotes, or after a backslash in such a text. -/
inductive Place
  | outside
  | identifier
  | text
  | escaped
deriving DecidableEq

/-- The place after a character.  A doubled mark stands for one inside the quotes; to leave them and
to enter them again comes to the same. -/
def Place.next : Place → Char → Place
  | .outside, '\x60' => .identifier
  | .outside, '\'' => .text
  | .outside, _ => .outside
  | .identifier, '\x60' => .outside
  | .identifier, _ => .identifier
  | .text, '\'' => .outside
  | .text, '\\' => .escaped
  | .text, _ => .text
  | .escaped, _ => .text

/-- The place after a text. -/
def scan (place : Place) (text : List Char) : Place := text.foldl Place.next place

/-- The characters that a scan meets outside quotes, the opening marks among them.  Two of them
stand next to each other here only if they do so in the text. -/
def outsideText : Place → List Char → List Char
  | _, [] => []
  | .outside, c :: rest => c :: outsideText (Place.next .outside c) rest
  | place, c :: rest => outsideText (place.next c) rest

/-- Whether two characters open a comment. -/
def opensComment (a b : Char) : Bool := (a == '-' && b == '-') || (a == '/' && b == '*')

/-- A text that is one statement whatever its names and values are: every quote is closed, and
outside quotes there is one semicolon, at the end, no double quote and nothing that opens a
comment. -/
structure IsSafe (text : String) : Prop where
  closed : scan .outside text.toList = .outside
  oneEnd : (outsideText .outside text.toList).count ';' = 1
  isEnd : text.toList.getLast? = some ';'
  noDoubleQuote : '"' ∉ outsideText .outside text.toList
  noHash : '#' ∉ outsideText .outside text.toList
  noComment : (outsideText .outside text.toList).IsChain fun a b => opensComment a b = false

/-- A character that neither ends a statement nor opens a comment nor quotes text in another way. -/
def isAllowed (c : Char) : Bool := c != ';' && c != '"' && c != '#'

/-- A character that can begin the two characters that open a comment. -/
def isHalfComment (c : Char) : Bool := c == '-' || c == '/'

/-- A piece of a statement that can be followed by any other such piece. -/
structure IsClean (text : String) : Prop where
  closed : scan .outside text.toList = .outside
  allowed : ∀ c ∈ outsideText .outside text.toList, isAllowed c = true
  noComment : (outsideText .outside text.toList).IsChain fun a b => opensComment a b = false
  noHalf : ∀ c ∈ (outsideText .outside text.toList).getLast?, isHalfComment c = false

theorem isClean_iff {text : String} : IsClean text ↔ scan .outside text.toList = .outside ∧
    (outsideText .outside text.toList).all isAllowed = true ∧
    (outsideText .outside text.toList).IsChain (fun a b => opensComment a b = false) ∧
    (outsideText .outside text.toList).getLast?.any isHalfComment = false := by
  rw [List.all_eq_true, Option.any_eq_false]
  exact ⟨fun ⟨h1, h2, h3, h4⟩ => ⟨h1, h2, h3, fun c hc => by simp [h4 c hc]⟩,
    fun ⟨h1, h2, h3, h4⟩ => ⟨h1, h2, h3, fun c hc => by simpa using h4 c hc⟩⟩

instance (text : String) : Decidable (IsClean text) := decidable_of_iff _ isClean_iff.symm

variable {place : Place} {a b text : String} {c : Char} {chars rest : List Char}

/-! ### Scans -/

theorem scan_append : scan place (chars ++ rest) = scan (scan place chars) rest := List.foldl_append

theorem outsideText_append : outsideText place (chars ++ rest) =
    outsideText place chars ++ outsideText (scan place chars) rest := by
  induction chars generalizing place with
  | nil => rfl
  | cons c chars ih => cases place <;> simp [outsideText, ih, scan]

/-! ### Putting clean pieces together -/

theorem IsClean.append (ha : IsClean a) (hb : IsClean b) : IsClean (a ++ b) := by
  have houtside : outsideText .outside (a ++ b).toList =
      outsideText .outside a.toList ++ outsideText .outside b.toList := by
    rw [String.toList_append, outsideText_append, ha.closed]
  refine ⟨?_, ?_, ?_, ?_⟩
  · rw [String.toList_append, scan_append, ha.closed, hb.closed]
  · rw [houtside]
    exact List.forall_mem_append.mpr ⟨ha.allowed, hb.allowed⟩
  · rw [houtside, List.isChain_append]
    refine ⟨ha.noComment, hb.noComment, fun x hx y _ => ?_⟩
    have hhalf := ha.noHalf x hx
    simp only [isHalfComment, Bool.or_eq_false_iff] at hhalf
    simp [opensComment, hhalf]
  · intro c hc
    rw [houtside, List.getLast?_append] at hc
    cases hlast : (outsideText .outside b.toList).getLast? with
    | none =>
      rw [hlast] at hc
      exact ha.noHalf c hc
    | some d =>
      rw [hlast] at hc
      cases hc
      exact hb.noHalf c hlast

theorem isClean_empty : IsClean "" := by decide

theorem isClean_intercalate {separator : String} {pieces : List String} (hs : IsClean separator)
    (h : ∀ piece ∈ pieces, IsClean piece) : IsClean (separator.intercalate pieces) := by
  induction pieces with
  | nil => exact isClean_empty
  | cons piece rest ih =>
    obtain ⟨hpiece, hrest⟩ := List.forall_mem_cons.mp h
    cases rest with
    | nil => simpa using hpiece
    | cons next rest =>
      rw [String.intercalate_cons_cons]
      exact (hpiece.append hs).append (ih hrest)

/-- A text that is clean, and a semicolon after it. -/
theorem IsClean.isSafe (h : IsClean text) : IsSafe (text ++ ";") := by
  have hend : outsideText .outside (text ++ ";").toList =
      outsideText .outside text.toList ++ [';'] := by
    rw [String.toList_append, outsideText_append, h.closed]
    rfl
  have hnone : ∀ c, isAllowed c = false → c ∉ outsideText .outside text.toList := by
    intro c hc hmem
    rw [h.allowed c hmem] at hc
    cases hc
  refine ⟨?_, ?_, ?_, ?_, ?_, ?_⟩
  · rw [String.toList_append, scan_append, h.closed]
    rfl
  · rw [hend, List.count_append, List.count_eq_zero_of_not_mem (hnone ';' rfl)]
    rfl
  · rw [String.toList_append]
    exact List.getLast?_concat
  · rw [hend, List.mem_append, not_or]
    exact ⟨hnone '"' rfl, by decide⟩
  · rw [hend, List.mem_append, not_or]
    exact ⟨hnone '#' rfl, by decide⟩
  · rw [hend, List.isChain_append]
    refine ⟨h.noComment, List.isChain_singleton _, fun x _ y hy => ?_⟩
    cases hy
    simp [opensComment]

/-! ### Texts that a scan leaves where it was -/

/-- A character that may stand anywhere outside quotes. -/
def isHarmless (c : Char) : Bool := isAllowed c && !isHalfComment c

/-- A text after which a scan is where it was before, having met only harmless characters outside
quotes. -/
structure Stays (place : Place) (chars : List Char) : Prop where
  back : scan place chars = place
  harmless : ∀ c ∈ outsideText place chars, isHarmless c = true

theorem stays_nil : Stays place [] := ⟨rfl, nofun⟩

theorem Stays.append (h : Stays place chars) (hrest : Stays place rest) :
    Stays place (chars ++ rest) := by
  constructor
  · rw [scan_append, h.back, hrest.back]
  · rw [outsideText_append, h.back]
    exact List.forall_mem_append.mpr ⟨h.harmless, hrest.harmless⟩

theorem stays_flatMap {α : Type} {f : α → List Char} {items : List α}
    (h : ∀ item ∈ items, Stays place (f item)) : Stays place (items.flatMap f) := by
  induction items with
  | nil => exact stays_nil
  | cons item rest ih =>
    obtain ⟨hitem, hrest⟩ := List.forall_mem_cons.mp h
    exact hitem.append (ih hrest)

theorem stays_of_forall (h : ∀ c ∈ chars, Stays place [c]) : Stays place chars := by
  have hall := stays_flatMap h
  rwa [List.flatMap_singleton'] at hall

/-- A character that leaves a scan between quotes where it is. -/
theorem stays_inside (hplace : place ≠ .outside) (h : place.next c = place) : Stays place [c] := by
  refine ⟨h, ?_⟩
  cases place with
  | outside => exact absurd rfl hplace
  | _ => exact nofun

/-- What stays between quotes, with the marks around it. -/
theorem Stays.between {mark : Char} (hin : Place.next .outside mark = place)
    (hout : place.next mark = .outside) (hmark : isHarmless mark = true) (h : Stays place chars) :
    Stays .outside (mark :: chars ++ [mark]) := by
  constructor
  · rw [List.cons_append, scan, List.foldl_cons, hin, ← scan, scan_append, h.back]
    exact hout
  · rw [List.cons_append, outsideText, hin, outsideText_append, h.back]
    refine List.forall_mem_cons.mpr ⟨hmark, List.forall_mem_append.mpr ⟨h.harmless, ?_⟩⟩
    cases place with
    | outside => exact List.forall_mem_singleton.mpr hmark
    | _ => exact nofun

theorem isChain_of_harmless (h : ∀ c ∈ chars, isHarmless c = true) :
    chars.IsChain fun a b => opensComment a b = false := by
  refine List.Pairwise.isChain (List.pairwise_of_forall_mem_list fun x hx y _ => ?_)
  have hx := h x hx
  simp only [isHarmless, isHalfComment, Bool.and_eq_true, Bool.not_eq_true',
    Bool.or_eq_false_iff] at hx
  simp [opensComment, hx.2]

theorem isClean_of_stays (h : Stays .outside text.toList) : IsClean text := by
  refine ⟨h.back, fun c hc => ?_, isChain_of_harmless h.harmless, fun c hc => ?_⟩
  · exact (Bool.and_eq_true_iff.mp (h.harmless c hc)).1
  · have hhalf := (Bool.and_eq_true_iff.mp (h.harmless c (List.mem_of_mem_getLast? hc))).2
    simpa using hhalf

/-! ### Names -/

/-- The characters of a name with its backticks doubled. -/
def doubledMarks (name : List Char) : List Char :=
  name.flatMap fun c => if c = '\x60' then [c, c] else [c]

theorem toList_quoteIdentifier (name : String) :
    (quoteIdentifier name).toList = '\x60' :: doubledMarks name.toList ++ ['\x60'] := by
  rw [quoteIdentifier, String.toList_ofList]
  rfl

theorem isClean_quoteIdentifier (name : String) : IsClean (quoteIdentifier name) := by
  apply isClean_of_stays
  rw [toList_quoteIdentifier]
  refine Stays.between rfl rfl rfl (stays_flatMap fun c _ => ?_)
  split
  · next hc =>
    subst hc
    exact ⟨rfl, List.all_eq_true.mp rfl⟩
  · next hc =>
    have hnext : Place.next .identifier c = .identifier := by
      rw [Place.next]
      exact hc
    exact stays_inside (by decide) hnext

/-- A harmless character that opens no quotes. -/
def isPlain (c : Char) : Bool := isHarmless c && c != '\x60' && c != '\''

theorem stays_plain (h : isPlain c = true) : Stays .outside [c] := by
  simp only [isPlain, Bool.and_eq_true, bne_iff_ne] at h
  obtain ⟨⟨hharmless, hname⟩, htext⟩ := h
  refine ⟨?_, List.forall_mem_singleton.mpr hharmless⟩
  change Place.next .outside c = .outside
  rw [Place.next]
  exacts [hname, htext]

theorem isPlain_of_isAlphanum (h : c.isAlphanum = true) : isPlain c = true := by
  have hne : ∀ d : Char, d.isAlphanum = false → c ≠ d := by
    rintro d hd rfl
    rw [h] at hd
    cases hd
  simp [isPlain, isHarmless, isAllowed, isHalfComment, hne]

theorem isClean_of_plain (h : ∀ c ∈ text.toList, isPlain c = true) : IsClean text :=
  isClean_of_stays (stays_of_forall fun c hc => stays_plain (h c hc))

theorem isClean_columnIdentifier (name : String) : IsClean (columnIdentifier name) := by
  rw [columnIdentifier]
  split
  · next hbare =>
    simp only [isBare, Bool.and_eq_true, List.all_eq_true] at hbare
    refine isClean_of_plain fun c hc => ?_
    have hword := hbare.1.2 c hc
    simp only [isWordChar, Bool.or_eq_true, beq_iff_eq] at hword
    obtain (halphanum | rfl) | rfl := hword
    · exact isPlain_of_isAlphanum halphanum
    · rfl
    · rfl
  · exact isClean_quoteIdentifier name

theorem isClean_qualifiedColumn (key : ColumnKey) : IsClean (qualifiedColumn key) := by
  have hpair : ∀ table column, IsClean (columnIdentifier table ++ "." ++ columnIdentifier column) :=
    fun table column =>
      ((isClean_columnIdentifier table).append (by decide)).append (isClean_columnIdentifier column)
  rw [qualifiedColumn]
  split
  · exact hpair _ _
  · split
    · exact hpair _ _
    · exact isClean_columnIdentifier _

/-! ### Values -/

theorem stays_escapeChar (c : Char) : Stays .text (escapeChar c) := by
  unfold escapeChar
  split
  case h_8 hslash htext _ _ _ _ _ =>
    have hnext : Place.next .text c = .text := by
      rw [Place.next]
      exacts [htext, hslash]
    exact stays_inside (by decide) hnext
  all_goals exact ⟨rfl, List.all_eq_true.mp rfl⟩

theorem toList_textLiteral (s : String) :
    (textLiteral s).toList = '\'' :: s.toList.flatMap escapeChar ++ ['\''] := by
  simp [textLiteral, escape]

theorem isClean_textLiteral (s : String) : IsClean (textLiteral s) := by
  apply isClean_of_stays
  rw [toList_textLiteral]
  exact Stays.between rfl rfl rfl (stays_flatMap fun c _ => stays_escapeChar c)

theorem stays_ofByte (b : UInt8) : Stays .text (Text.Hex.ofByte b) := by
  have hdigit : ∀ n < 16, Place.next .text (Text.Hex.digit n) = .text := by decide
  have hstays : ∀ n < 16, Stays .text [Text.Hex.digit n] := fun n hn =>
    stays_inside (by decide) (hdigit n hn)
  have hbyte := b.toNat_lt
  exact (hstays (b.toNat / 16) (by omega)).append (hstays (b.toNat % 16) (by omega))

theorem toList_bytesLiteral (data : List UInt8) : ("X'" ++ Text.Hex.ofBytes data ++ "'").toList =
    ['X'] ++ ('\'' :: data.flatMap Text.Hex.ofByte ++ ['\'']) := by
  simp [Text.Hex.ofBytes]

theorem isClean_bytes (data : List UInt8) : IsClean ("X'" ++ Text.Hex.ofBytes data ++ "'") := by
  apply isClean_of_stays
  rw [toList_bytesLiteral]
  refine (stays_plain (by decide)).append (Stays.between rfl rfl rfl ?_)
  exact stays_flatMap fun b _ => stays_ofByte b

/-- A minus sign opens no comment when a harmless character follows it. -/
theorem isClean_minus (hne : chars ≠ []) (h : ∀ c ∈ chars, isPlain c = true) :
    IsClean (String.ofList ('-' :: chars)) := by
  have hstays : Stays .outside chars := stays_of_forall fun c hc => stays_plain (h c hc)
  have houtside : outsideText .outside ('-' :: chars) = '-' :: outsideText .outside chars := rfl
  have hhalf : ∀ c ∈ outsideText .outside chars, isHalfComment c = false := fun c hc => by
    simpa using (Bool.and_eq_true_iff.mp (hstays.harmless c hc)).2
  constructor <;> rw [String.toList_ofList]
  · exact hstays.back
  · rw [houtside]
    exact List.forall_mem_cons.mpr
      ⟨rfl, fun c hc => (Bool.and_eq_true_iff.mp (hstays.harmless c hc)).1⟩
  · rw [houtside, List.isChain_cons]
    refine ⟨fun c hc => ?_, isChain_of_harmless hstays.harmless⟩
    have hc := hhalf c (List.mem_of_mem_head? hc)
    simp only [isHalfComment, Bool.or_eq_false_iff] at hc
    simp [opensComment, hc]
  · cases chars with
    | nil => exact absurd rfl hne
    | cons d more => exact fun c hc => hhalf c (List.mem_of_mem_getLast? hc)

theorem isPlain_of_mem_toDigits {n : Nat} (h : c ∈ Nat.toDigits 10 n) : isPlain c = true :=
  isPlain_of_isAlphanum (by simp [Char.isAlphanum,
    Nat.isDigit_of_mem_toDigits (by decide) le_rfl h])

theorem isClean_nat (n : Nat) : IsClean (toString n) := by
  refine isClean_of_plain fun c hc => isPlain_of_mem_toDigits (n := n) ?_
  rwa [Nat.toString_eq_repr, Nat.repr, String.toList_ofList] at hc

theorem isClean_int (n : Int) : IsClean (toString n) := by
  cases n with
  | ofNat n => exact isClean_nat n
  | negSucc n =>
    have htext : toString (Int.negSucc n) = String.ofList ('-' :: Nat.toDigits 10 n.succ) := by
      rw [← String.toList_inj, Int.toString_eq_repr, Int.repr, Nat.repr]
      simp
    rw [htext]
    exact isClean_minus Nat.toDigits_ne_nil fun c hc => isPlain_of_mem_toDigits hc

theorem isPlain_of_mem_zeros {count : Nat} (h : c ∈ Binary64.zeros count) : isPlain c = true := by
  rw [List.eq_of_mem_replicate h]
  rfl

open Binary64 in
theorem isPlain_of_mem_digits {tie : Tie} {m : Nat} {q : Int} (h : c ∈ (shortest tie m q).digits) :
    isPlain c = true := by
  simp only [shortest, withoutTrailingZeros, List.mem_reverse] at h
  exact isPlain_of_mem_toDigits (List.mem_reverse.mp ((List.dropWhile_sublist _).subset h))

open Binary64 in
/-- There is always a digit before the point. -/
theorem whole_ne_nil (d : Decimal) : d.parts.1 ≠ [] := by
  unfold Decimal.parts
  split
  · exact List.cons_ne_nil _ _
  · refine List.ne_nil_of_length_pos ?_
    simp only [List.length_append, List.length_take, zeros, List.length_replicate]
    omega

open Binary64 in
theorem isPlain_of_mem_positional {d : Decimal} (hdigits : ∀ c ∈ d.digits, isPlain c = true)
    (h : c ∈ d.positional) : isPlain c = true := by
  have hparts : (∀ c ∈ d.parts.1, isPlain c = true) ∧ ∀ c ∈ d.parts.2, isPlain c = true := by
    unfold Decimal.parts
    split
    · exact ⟨List.forall_mem_singleton.mpr rfl,
        List.forall_mem_append.mpr ⟨fun c => isPlain_of_mem_zeros, hdigits⟩⟩
    · exact ⟨List.forall_mem_append.mpr
          ⟨fun c hc => hdigits c (List.mem_of_mem_take hc), fun c => isPlain_of_mem_zeros⟩,
        fun c hc => hdigits c (List.mem_of_mem_drop hc)⟩
  unfold Decimal.positional at h
  split at h
  · next hp =>
    rw [hp] at hparts
    exact hparts.1 c h
  · next hp =>
    rw [hp] at hparts
    rw [List.mem_append, List.mem_cons] at h
    obtain h | rfl | h := h
    · exact hparts.1 c h
    · rfl
    · exact hparts.2 c h

open Binary64 in
theorem positional_ne_nil (d : Decimal) : d.positional ≠ [] := by
  have hwhole := whole_ne_nil d
  unfold Decimal.positional
  split
  · next hp =>
    rwa [hp] at hwhole
  · exact List.append_ne_nil_of_right_ne_nil _ (List.cons_ne_nil _ _)

theorem isClean_signed (x : Binary64) (hne : chars ≠ []) (h : ∀ c ∈ chars, isPlain c = true) :
    IsClean (x.signed chars) := by
  rw [Binary64.signed]
  split
  · exact isClean_minus hne h
  · refine isClean_of_plain fun c hc => h c ?_
    rwa [String.toList_ofList] at hc

theorem isClean_plain (x : Binary64) : IsClean x.plain := by
  unfold Binary64.plain
  split
  · decide
  · exact isClean_signed x (by decide) (List.all_eq_true.mp rfl)
  · exact isClean_signed x (by decide) (List.all_eq_true.mp rfl)
  · exact isClean_signed x (positional_ne_nil _)
      fun c => isPlain_of_mem_positional fun c => isPlain_of_mem_digits

theorem isClean_literal (v : Value) : IsClean (literal v) := by
  cases v with
  | null => exact (by decide : IsClean "NULL")
  | bool b => cases b <;> decide
  | int n => exact isClean_int _
  | uint n => exact isClean_nat _
  | float x => exact isClean_plain x
  | text s => exact isClean_textLiteral s
  | bytes data => exact isClean_bytes data

end SchemaQuery.MySql
