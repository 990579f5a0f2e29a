import SchemaQuery.Proofs.Column.Definition.List

/-! Which lists of definitions can be cut.  The reading of a text keeps track of quotes and brackets
at once; here they are told apart: quotes do not depend on brackets, and brackets count where no
quotes are open.  A text is rejected when a bracket closes nothing, or when quotes or brackets are
open at its end.  What it is cut into otherwise is not cut any further, and can be put together and
cut again. -/

namespace SchemaQuery

namespace Text

variable {text : List Char}

/-- Whether no blank stands at either end of a text. -/
structure IsTrimmed (text : List Char) : Prop where
  start : ∀ c ∈ text.head?, isBlank c = false
  finish : ∀ c ∈ text.getLast?, isBlank c = false

theorem isBlank_getLast?_trimEnd (text : List Char) :
    ∀ c ∈ (trimEnd text).getLast?, isBlank c = false := by
  induction text with
  | nil => simp [trimEnd]
  | cons d rest ih =>
    rw [trimEnd]
    cases hrest : trimEnd rest with
    | nil => by_cases hd : isBlank d = true <;> simp [hd]
    | cons e kept =>
      rw [hrest] at ih
      simpa [List.getLast?_cons_cons] using ih

theorem isTrimmed_of_trimChars (h : trimChars text = text) : IsTrimmed text := by
  constructor
  · intro c hc
    rw [← h, trimChars, ← dropWhile_trimEnd] at hc
    have hfirst := List.head?_dropWhile_not isBlank (trimEnd text)
    rw [Option.mem_def.mp hc] at hfirst
    exact hfirst
  · rw [← h, trimChars]
    exact isBlank_getLast?_trimEnd _

end Text

namespace Definition

variable {isSeparator : Char → Bool} {place last : Place} {depth : Nat} {text : List Char}
  {c : Char}

/-! ### Quotes and brackets -/

/-- What is known of quotes while a text is read: none are open, or those of a mark, perhaps just
after a backslash. -/
inductive Quotes
  | closed
  | opened (mark : Char) (escaped : Bool)
deriving DecidableEq

def Quotes.step : Quotes → Char → Quotes
  | .closed, c => if isQuote c then .opened c false else .closed
  | .opened mark true, _ => .opened mark false
  | .opened mark false, c =>
    if c = '\\' then .opened mark true else if c = mark then .closed else .opened mark false

/-- The characters of a text that are read while no quotes are open. -/
def bare (quotes : Quotes) : List Char → List Char
  | [] => []
  | c :: rest => (if quotes = .closed then [c] else []) ++ bare (quotes.step c) rest

/-- The number of open brackets after one more character.  A bracket that closes nothing does not
count. -/
def bracket (depth : Nat) (c : Char) : Nat :=
  if c = '(' then depth + 1 else if c = ')' then depth - 1 else depth

/-- The quotes that a text leaves open, if it does. -/
def openQuotes (text : List Char) : Quotes := text.foldl Quotes.step .closed

/-- The number of brackets outside quotes that a text leaves open. -/
def openBrackets (text : List Char) : Nat := (bare .closed text).foldl bracket 0

/-- Whether a bracket outside quotes closes where no bracket is open. -/
def ClosesNothing (text : List Char) : Prop :=
  ∃ front rest, text = front ++ ')' :: rest ∧ openQuotes front = .closed ∧ openBrackets front = 0

/-- Whether quotes or brackets are open at the end of a text. -/
def LeavesOpen (text : List Char) : Prop := openQuotes text ≠ .closed ∨ openBrackets text ≠ 0

variable {quotes : Quotes}

/-! ### The reading of a text -/

namespace Place

/-- A place by its two parts: the number of open brackets, and the quotes. -/
def of (depth : Nat) : Quotes → Place
  | .closed => .outside depth
  | .opened mark escaped => .quoted depth mark escaped

theorem of_eq_outside_iff : Place.of depth quotes = .outside 0 ↔ quotes = .closed ∧ depth = 0 := by
  cases quotes <;> simp [of]

/-- Quotes go on by themselves, and brackets count outside quotes.  The only character that leads
nowhere is a bracket that closes nothing. -/
theorem step_of (depth : Nat) (quotes : Quotes) (c : Char) : (Place.of depth quotes).step c =
    if quotes = .closed ∧ depth = 0 ∧ c = ')' then none
    else some (.of (if quotes = .closed then bracket depth c else depth) (quotes.step c)) := by
  cases quotes with
  | closed =>
    by_cases hq : isQuote c = true
    · have hne : c ≠ '(' ∧ c ≠ ')' := by
        constructor <;> (rintro rfl; cases hq)
      simp [of, step, Quotes.step, bracket, hq, hne]
    · by_cases ho : c = '('
      · simp [of, step, Quotes.step, bracket, ho, isQuote]
      · by_cases hc : c = ')'
        · cases depth <;> simp [of, step, Quotes.step, bracket, hc, isQuote]
        · simp [of, step, Quotes.step, bracket, hq, ho, hc]
  | opened mark escaped =>
    cases escaped with
    | true => simp [of, step, Quotes.step]
    | false =>
      by_cases hc : c = '\\'
      · simp [of, step, Quotes.step, hc]
      · by_cases hm : c = mark
        · subst hm
          simp [of, step, Quotes.step, hc]
        · simp [of, step, Quotes.step, hc, hm]

/-- The place after a text; nothing when one of its brackets closes nothing. -/
def walk (place : Place) (text : List Char) : Option Place := text.foldlM Place.step place

theorem walk_cons : place.walk (c :: text) = (place.step c).bind fun next => next.walk text := by
  rw [walk, List.foldlM_cons]
  rfl

theorem walk_append {other : List Char} :
    place.walk (text ++ other) = (place.walk text).bind fun next => next.walk other := by
  rw [walk, List.foldlM_append]
  rfl

theorem walk_of (h : (Place.of depth quotes).walk text = some last) :
    last = .of ((bare quotes text).foldl bracket depth) (text.foldl Quotes.step quotes) := by
  induction text generalizing depth quotes with
  | nil => exact (Option.some.inj h).symm
  | cons c rest ih =>
    rw [walk_cons, step_of] at h
    split at h
    · cases h
    · rw [ih h, bare, List.foldl_append, List.foldl_cons]
      split <;> rfl

theorem walk_start (h : (Place.outside 0).walk text = some last) :
    last = .of (openBrackets text) (openQuotes text) := by
  have hstart : Place.outside 0 = .of 0 .closed := rfl
  rw [hstart] at h
  exact walk_of h

/-- A text that leads nowhere has a first character that does. -/
theorem exists_of_walk_eq_none (h : place.walk text = none) :
    ∃ front c rest last, text = front ++ c :: rest ∧ place.walk front = some last ∧
      last.step c = none := by
  induction text generalizing place with
  | nil => cases h
  | cons c rest ih =>
    rw [walk_cons] at h
    cases hstep : place.step c with
    | none => exact ⟨[], c, rest, place, rfl, rfl, hstep⟩
    | some next =>
      rw [hstep, Option.bind_some] at h
      obtain ⟨front, d, more, last, rfl, hfront, hlast⟩ := ih h
      exact ⟨c :: front, d, more, last, rfl,
        by rw [walk_cons, hstep, Option.bind_some, hfront], hlast⟩

theorem walk_start_eq_none_iff : (Place.outside 0).walk text = none ↔ ClosesNothing text := by
  -- A reading stops at the first bracket that closes nothing, and there are no other reasons to
  -- stop.
  have hstops {front : List Char} {c : Char} {last : Place}
      (h : (Place.outside 0).walk front = some last) : last.step c = none ↔
      openQuotes front = .closed ∧ openBrackets front = 0 ∧ c = ')' := by
    rw [walk_start h, step_of]
    simp
  constructor
  · intro h
    obtain ⟨front, c, rest, last, htext, hfront, hlast⟩ := exists_of_walk_eq_none h
    obtain ⟨hquotes, hbrackets, rfl⟩ := (hstops hfront).mp hlast
    exact ⟨front, rest, htext, hquotes, hbrackets⟩
  · rintro ⟨front, rest, rfl, hquotes, hbrackets⟩
    rw [walk_append]
    cases hfront : (Place.outside 0).walk front with
    | none => rfl
    | some last =>
      rw [Option.bind_some, walk_cons, (hstops hfront).mpr ⟨hquotes, hbrackets, rfl⟩,
        Option.bind_none]

end Place

/-! ### Rejected texts -/

/-- What becomes of a text that is cut depends on where its reading ends, and not on the
separator. -/
theorem map_pieces
    (hsep : ∀ c, isSeparator c = true → (Place.outside 0).step c = some (.outside 0)) :
    (pieces isSeparator place text).map (fun _ => ()) = match place.walk text with
      | none => .error .unbalanced
      | some last => if last = .outside 0 then .ok () else .error .unterminated := by
  have hmap {β γ : Type} (f : β → γ) (x : Except CutFault β) :
      (x.map f).map (fun _ => ()) = x.map fun _ => () := by
    cases x <;> rfl
  induction text generalizing place with
  | nil =>
    rw [pieces, Place.walk]
    by_cases hplace : place = .outside 0 <;> simp [hplace]
  | cons c rest ih =>
    rw [Place.walk_cons, pieces]
    split
    · next hcut => rw [hmap, ih, hcut.1, hsep c hcut.2, Option.bind_some]
    · cases hstep : place.step c with
      | none => rfl
      | some next => rw [hmap, ih, Option.bind_some]

theorem step_of_comma {c : Char} (h : (c == ',') = true) :
    (Place.outside 0).step c = some (.outside 0) := by
  rw [beq_iff_eq.mp h]
  decide

/-- A list is rejected for the first bracket that closes nothing, or else for what is open at its
end. -/
theorem splitList_cases (text : String) :
    (ClosesNothing text.toList ∧ splitList text = .error (.unbalanced text)) ∨
    (¬ClosesNothing text.toList ∧ LeavesOpen text.toList ∧
      splitList text = .error (.unterminated text)) ∨
    ¬ClosesNothing text.toList ∧ ¬LeavesOpen text.toList ∧ ∃ items, splitList text = .ok items := by
  have hcut : (pieces (· == ',') (.outside 0) text.toList).map (fun _ => ()) = _ :=
    map_pieces fun c => step_of_comma
  rw [← Place.walk_start_eq_none_iff]
  cases hwalk : (Place.outside 0).walk text.toList with
  | none =>
    rw [hwalk] at hcut
    refine .inl ⟨rfl, ?_⟩
    rw [splitList, split, map_eq_error_iff.mp hcut]
  | some last =>
    have hopen : LeavesOpen text.toList ↔ last ≠ .outside 0 := by
      rw [Place.walk_start hwalk, Ne, Place.of_eq_outside_iff, LeavesOpen]
      tauto
    rw [hwalk] at hcut
    refine .inr ?_
    by_cases hlast : last = .outside 0
    · simp only [hlast, if_true] at hcut
      obtain ⟨⟨first, more⟩, hpieces, -⟩ := map_eq_ok_iff.mp hcut
      have hsplit := splitList_eq_ok_iff.mpr ⟨first, more, hpieces, rfl⟩
      exact .inr ⟨Option.some_ne_none last, fun h => hopen.mp h hlast, _, hsplit⟩
    · simp only [hlast, if_false] at hcut
      refine .inl ⟨Option.some_ne_none last, hopen.mpr hlast, ?_⟩
      rw [splitList, split, map_eq_error_iff.mp hcut]

theorem exists_splitList_eq_error_iff {text : String} :
    (∃ fault, splitList text = .error fault) ↔
      ClosesNothing text.toList ∨ LeavesOpen text.toList := by
  obtain ⟨hc, hsplit⟩ | ⟨-, ho, hsplit⟩ | ⟨hc, ho, items, hsplit⟩ := splitList_cases text
  · exact iff_of_true ⟨_, hsplit⟩ (.inl hc)
  · exact iff_of_true ⟨_, hsplit⟩ (.inr ho)
  · simp [hsplit, hc, ho]

/-! ### Cutting again -/

/-- Definitions each of which is the only one of itself are those of their list, with or without
blanks after the commas. -/
theorem splitList_join {items : List String} (h : ∀ item ∈ items, splitList item = .ok [item]) :
    splitList (",".intercalate items) = .ok items := by
  induction items with
  | nil => rfl
  | cons item rest ih =>
    obtain ⟨hitem, hrest⟩ := List.forall_mem_cons.mp h
    cases rest with
    | nil => simpa using hitem
    | cons next rest =>
      rw [String.intercalate_cons_cons]
      exact splitList_append hitem (ih hrest)

/-- Whether a text is a definition that cutting leaves as it is. -/
structure IsWhole (text : String) : Prop where
  nonempty : text ≠ ""
  trimmed : Text.IsTrimmed text.toList
  alone : splitList text = .ok [text]

/-- Cutting is stable.  Each definition that a list is cut into is whole, and put together they are
cut into the same ones; any whole definitions are those of the list that they make up.  A list is
rejected exactly when a bracket outside quotes closes nothing, or when quotes or brackets are open
at its end. -/
theorem splitList_stable (text : String) (items : List String) :
    (∀ found, splitList text = .ok found →
      (∀ item ∈ found, IsWhole item) ∧ splitList (", ".intercalate found) = .ok found) ∧
    ((∀ item ∈ items, IsWhole item) → splitList (",".intercalate items) = .ok items) ∧
    ((∃ fault, splitList text = .error fault) ↔
      ClosesNothing text.toList ∨ LeavesOpen text.toList) := by
  refine ⟨fun found hfound => ⟨fun item hitem => ?_, ?_⟩,
    fun h => splitList_join fun item hitem => ?_, exists_splitList_eq_error_iff⟩
  · have hitem := isItem_of_splitList hfound hitem
    exact ⟨hitem.nonempty, Text.isTrimmed_of_trimChars hitem.trimmed, hitem.splitList⟩
  · exact splitList_intercalate fun item hitem => isItem_of_splitList hfound hitem
  · exact (h item hitem).alone

/-- A list with a comma and an escaped mark in quotes, a comma in brackets, and nothing between two
commas. -/
theorem splitList_stable_quoted :
    let text := " a enum('x,\\')') ,, b decimal(10, 2) default \"(\", c text "
    let found := ["a enum('x,\\')')", "b decimal(10, 2) default \"(\"", "c text"]
    splitList text = .ok found ∧
      ((∀ item ∈ found, IsWhole item) ∧ splitList (", ".intercalate found) = .ok found) ∧
      splitList (",".intercalate found) = .ok found ∧
      ¬(ClosesNothing text.toList ∨ LeavesOpen text.toList) := by
  intro text found
  have hfound : splitList text = .ok found := by decide +kernel
  obtain ⟨hcut, hjoin, hrejected⟩ := splitList_stable text found
  refine ⟨hfound, hcut found hfound, hjoin (hcut found hfound).1, ?_⟩
  rw [← hrejected, hfound]
  rintro ⟨fault, hfault⟩
  cases hfault

end Definition

end SchemaQuery
