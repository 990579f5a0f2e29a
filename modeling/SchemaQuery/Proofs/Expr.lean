import SchemaQuery.Proofs.MySql.Token

/-! The text of an expression tells its tree.  An operation stands in brackets, and so does a list;
neither a name nor a literal can be written in a way that looks like an operator, a bracket or the
beginning of another operand.  Only the sort that a whole number or a truth value is kept in does
not show. -/

namespace SchemaQuery

namespace Arithmetic

theorem symbol_inj : ∀ {op other : Arithmetic}, op.symbol = other.symbol → op = other := by
  intro op other h
  cases op <;> cases other <;> first | rfl | exact absurd h (by decide)

theorem not_mem_symbol (op : Arithmetic) : ' ' ∉ op.symbol.toList := by cases op <;> decide

theorem symbol_ne (op : Arithmetic) (comparison : Comparison) : op.symbol ≠ comparison.symbol := by
  cases op <;> cases comparison <;> decide

end Arithmetic

namespace Comparison

theorem symbol_inj : ∀ {op other : Comparison}, op.symbol = other.symbol → op = other := by
  intro op other h
  cases op <;> cases other <;> first | rfl | exact absurd h (by decide)

theorem not_mem_symbol (op : Comparison) : ' ' ∉ op.symbol.toList := by cases op <;> decide

end Comparison

namespace Expr

open MySql

variable {e f left left' right right' : Expr} {symbol symbol' : String} {r s : List Char}
  {values values' : List Value}

/-- Whether every column is named by its table and by a name without a point, and no value is a
float. -/
def isReadable : Expr → Bool
  | .column key => key.table.isSome && !hasPoint key.column
  | .value v => !v.isFloat
  | .list values => values.all fun v => !v.isFloat
  | .operation _ left right | .comparison _ left right => left.isReadable && right.isReadable

/-- The expression up to the sorts that its numbers are kept in. -/
def plain : Expr → Expr
  | .column key => .column key
  | .value v => .value v.plain
  | .list values => .list (values.map Value.plain)
  | .operation op left right => .operation op left.plain right.plain
  | .comparison op left right => .comparison op left.plain right.plain

/-- What the text of an expression begins with. -/
def opening : Expr → Opening
  | .column _ => .name
  | .value _ => .literal
  | .list _ | .operation .. | .comparison .. => .bracket

/-! ### The text of an expression -/

/-- The text of values with a comma and a blank in front of each. -/
def laterItems (values : List Value) : List Char :=
  values.flatMap fun v => ',' :: ' ' :: (literal v).toList

/-- The text of a list between its brackets. -/
def items : List Value → List Char
  | [] => []
  | v :: rest => (literal v).toList ++ laterItems rest

theorem toList_intercalate_literal (values : List Value) :
    (", ".intercalate (values.map literal)).toList = items values := by
  cases values with
  | nil => rfl
  | cons v rest =>
    induction rest generalizing v with
    | nil => simp [items, laterItems]
    | cons w rest ih =>
      rw [List.map_cons, List.map_cons, String.intercalate_cons_cons, ← List.map_cons,
        String.toList_append, String.toList_append, ih w]
      simp [items, laterItems]

theorem toList_list (values : List Value) :
    (Expr.list values).text.toList = '(' :: (items values ++ [')']) := by
  rw [text, render, String.toList_append, String.toList_append, toList_intercalate_literal]
  rfl

theorem items_cons_append (v : Value) (rest : List Value) :
    items (v :: rest) ++ r = (literal v).toList ++ (laterItems rest ++ r) := by
  rw [items, List.append_assoc]

/-- The symbol and the operands of an operation or a comparison. -/
def parts? : Expr → Option (String × Expr × Expr)
  | .operation op left right => some (op.symbol, left, right)
  | .comparison op left right => some (op.symbol, left, right)
  | _ => none

/-- The text of an operation, given the texts of its symbol and its operands. -/
def between (left symbol right : List Char) : List Char :=
  '(' :: (left ++ ' ' :: (symbol ++ ' ' :: (right ++ [')'])))

theorem toList_of_parts (h : e.parts? = some (symbol, left, right)) :
    e.text.toList = between left.text.toList symbol.toList right.text.toList := by
  cases e with
  | operation op left right =>
    cases h
    simp [text, render, between]
  | comparison op left right =>
    cases h
    simp [text, render, between]
  | _ => cases h

theorem isReadable_of_parts (h : e.parts? = some (symbol, left, right)) (he : e.isReadable = true) :
    left.isReadable = true ∧ right.isReadable = true := by
  cases e with
  | operation op left right =>
    cases h
    exact Bool.and_eq_true_iff.mp he
  | comparison op left right =>
    cases h
    exact Bool.and_eq_true_iff.mp he
  | _ => cases h

theorem not_mem_of_parts (h : e.parts? = some (symbol, left, right)) : ' ' ∉ symbol.toList := by
  cases e with
  | operation op left right =>
    cases h
    exact op.not_mem_symbol
  | comparison op left right =>
    cases h
    exact op.not_mem_symbol
  | _ => cases h

/-- No two operators have the same symbol. -/
theorem plain_eq_of_parts (he : e.parts? = some (symbol, left, right))
    (hf : f.parts? = some (symbol, left', right')) (hl : left.plain = left'.plain)
    (hr : right.plain = right'.plain) : e.plain = f.plain := by
  cases e with
  | operation op left right =>
    cases he
    cases f with
    | operation op' left' right' =>
      obtain ⟨hsymbol, rfl, rfl⟩ : op'.symbol = op.symbol ∧ left' = _ ∧ right' = _ := by
        simpa [parts?] using hf
      rw [plain, plain, hl, hr, Arithmetic.symbol_inj hsymbol]
    | comparison op' left' right' =>
      have hsymbol : op'.symbol = op.symbol := congrArg Prod.fst (Option.some.inj hf)
      exact absurd hsymbol.symm (op.symbol_ne op')
    | _ => cases hf
  | comparison op left right =>
    cases he
    cases f with
    | operation op' left' right' =>
      have hsymbol : op'.symbol = op.symbol := congrArg Prod.fst (Option.some.inj hf)
      exact absurd hsymbol (op'.symbol_ne op)
    | comparison op' left' right' =>
      obtain ⟨hsymbol, rfl, rfl⟩ : op'.symbol = op.symbol ∧ left' = _ ∧ right' = _ := by
        simpa [parts?] using hf
      rw [plain, plain, hl, hr, Comparison.symbol_inj hsymbol]
    | _ => cases hf
  | _ => cases he

theorem opening_text (he : e.isReadable = true) (hr : Stops r) :
    Opening.ofSign (sign (e.text.toList ++ r)) = e.opening := by
  cases e with
  | column key =>
    obtain ⟨table, column⟩ := key
    simp only [isReadable, Bool.and_eq_true, Bool.not_eq_true', Option.isSome_iff_exists] at he
    obtain ⟨⟨table, rfl⟩, hcolumn⟩ := he
    exact opening_column hcolumn
  | value v => exact (spells_literal (by simpa [isReadable] using he)).opening hr
  | list values =>
    rw [toList_list]
    exact opening_bracket
  | operation op left right =>
    rw [toList_of_parts rfl]
    exact opening_bracket
  | comparison op left right =>
    rw [toList_of_parts rfl]
    exact opening_bracket

theorem opening_eq (he : e.isReadable = true) (hf : f.isReadable = true) (hr : Stops r)
    (hs : Stops s) (h : e.text.toList ++ r = f.text.toList ++ s) : e.opening = f.opening := by
  rw [← opening_text he hr, ← opening_text hf hs, h]

/-! ### Lists -/

theorem stops_comma : Stops (',' :: r) := by simp [Stops]

theorem stops_blank : Stops (' ' :: r) := by simp [Stops]

theorem stops_bracket : Stops (')' :: r) := by simp [Stops]

theorem stops_laterItems : Stops (laterItems values ++ ')' :: r) := by
  cases values with
  | nil => exact stops_bracket
  | cons v rest => exact stops_comma

theorem laterItems_append_inj (hv : ∀ v ∈ values, v.isFloat = false)
    (hw : ∀ v ∈ values', v.isFloat = false)
    (h : laterItems values ++ ')' :: r = laterItems values' ++ ')' :: s) :
    values.map Value.plain = values'.map Value.plain ∧ r = s := by
  induction values generalizing values' with
  | nil =>
    cases values' with
    | nil => exact ⟨rfl, (List.cons.inj h).2⟩
    | cons w rest' => exact absurd (List.cons.inj h).1 (by decide)
  | cons v rest ih =>
    cases values' with
    | nil => exact absurd (List.cons.inj h).1 (by decide)
    | cons w rest' =>
      obtain ⟨hv, hrest⟩ := List.forall_mem_cons.mp hv
      obtain ⟨hw, hrest'⟩ := List.forall_mem_cons.mp hw
      have htext : (literal v).toList ++ (laterItems rest ++ ')' :: r) =
          (literal w).toList ++ (laterItems rest' ++ ')' :: s) := by
        simpa [laterItems] using h
      obtain ⟨hvw, htext⟩ :=
        (spells_literal hv).append_inj (spells_literal hw) stops_laterItems stops_laterItems htext
      obtain ⟨hvalues, hrs⟩ := ih hrest hrest' htext
      exact ⟨by rw [List.map_cons, List.map_cons, hvw, hvalues], hrs⟩

theorem laterItems_cons_append (v : Value) (rest : List Value) :
    laterItems (v :: rest) ++ r = ',' :: ' ' :: (items (v :: rest) ++ r) := by
  simp [laterItems, items]

theorem items_append_inj (hv : ∀ v ∈ values, v.isFloat = false)
    (hw : ∀ v ∈ values', v.isFloat = false)
    (h : items values ++ ')' :: r = items values' ++ ')' :: s) :
    values.map Value.plain = values'.map Value.plain ∧ r = s := by
  cases values with
  | nil =>
    cases values' with
    | nil => exact ⟨rfl, (List.cons.inj h).2⟩
    | cons w rest' =>
      rw [items_cons_append] at h
      exact absurd h.symm (spells_literal (hw w (by simp))).append_ne_bracket
  | cons v rest =>
    cases values' with
    | nil =>
      rw [items_cons_append] at h
      exact absurd h (spells_literal (hv v (by simp))).append_ne_bracket
    | cons w rest' =>
      refine laterItems_append_inj hv hw ?_
      rw [laterItems_cons_append, laterItems_cons_append, h]

/-- A list is not an operation: its first value would have to be the left operand, and no blank
follows it. -/
theorem items_append_ne (hv : ∀ v ∈ values, v.isFloat = false) (hf : f.isReadable = true) :
    items values ++ ')' :: r ≠ f.text.toList ++ ' ' :: s := by
  intro h
  -- what begins like a value, or with the closing bracket, can only be a value
  have hopening : f.opening = .literal := by
    rw [← opening_text hf stops_blank, ← h]
    cases values with
    | nil => exact stops_bracket.opening
    | cons v rest =>
      rw [items_cons_append]
      exact (spells_literal (hv v (by simp))).opening stops_laterItems
  cases f with
  | value w =>
    have hw : w.isFloat = false := by simpa [isReadable] using hf
    cases values with
    | nil => exact (spells_literal hw).append_ne_bracket h.symm
    | cons v rest =>
      rw [items_cons_append] at h
      obtain ⟨-, hrest⟩ :=
        (spells_literal (hv v (by simp))).append_inj (spells_literal hw) stops_laterItems
          stops_blank h
      cases rest with
      | nil => exact absurd (List.cons.inj hrest).1 (by decide)
      | cons w rest => exact absurd (List.cons.inj hrest).1 (by decide)
  | _ => cases hopening

/-! ### Readings -/

theorem forall_of_isReadable (he : (Expr.list values).isReadable = true) :
    ∀ v ∈ values, v.isFloat = false := by
  simpa [isReadable] using he

/-- In front of a text that stops it, the text of the expression can be read in one way. -/
def Determines (e : Expr) : Prop :=
  ∀ (f : Expr) (r s : List Char), f.isReadable = true → Stops r → Stops s →
    e.text.toList ++ r = f.text.toList ++ s → e.plain = f.plain ∧ r = s

theorem parts_append_inj (he : e.parts? = some (symbol, left, right))
    (hf : f.parts? = some (symbol', left', right')) (hreadable : f.isReadable = true)
    (hl : left.Determines) (hr : right.Determines)
    (h : e.text.toList ++ r = f.text.toList ++ s) :
    left.plain = left'.plain ∧ symbol = symbol' ∧ right.plain = right'.plain ∧ r = s := by
  have hword : ∀ {word : List Char}, ' ' ∉ word → ∀ c ∈ word, (c != ' ') = true := by
    intro word hword c hc
    exact bne_iff_ne.mpr fun heq => hword (heq ▸ hc)
  obtain ⟨hleft', hright'⟩ := isReadable_of_parts hf hreadable
  have htext :
      left.text.toList ++ ' ' :: (symbol.toList ++ ' ' :: (right.text.toList ++ ')' :: r)) =
      left'.text.toList ++ ' ' :: (symbol'.toList ++ ' ' :: (right'.text.toList ++ ')' :: s)) := by
    rw [toList_of_parts he, toList_of_parts hf] at h
    simpa [between] using h
  obtain ⟨hleft, htext⟩ := hl left' _ _ hleft' stops_blank stops_blank htext
  obtain ⟨hsymbol, htext⟩ := run_append_inj (hword (not_mem_of_parts he))
    (hword (not_mem_of_parts hf)) (beginsOutside_cons (by decide)) (beginsOutside_cons (by decide))
    (List.cons.inj htext).2
  obtain ⟨hright, htext⟩ :=
    hr right' _ _ hright' stops_bracket stops_bracket (List.cons.inj htext).2
  exact ⟨hleft, String.toList_inj.mp hsymbol, hright, (List.cons.inj htext).2⟩

theorem list_append_ne (he : (Expr.list values).isReadable = true) (hf : f.isReadable = true)
    (hparts : f.parts? = some (symbol, left, right)) :
    (Expr.list values).text.toList ++ r ≠ f.text.toList ++ s := by
  intro h
  rw [toList_list, toList_of_parts hparts] at h
  have htext : items values ++ ')' :: r =
      left.text.toList ++ ' ' :: (symbol.toList ++ ' ' :: (right.text.toList ++ ')' :: s)) := by
    simpa [between] using h
  exact items_append_ne (forall_of_isReadable he) (isReadable_of_parts hparts hf).1 htext

theorem determines_column {key : ColumnKey} (he : (Expr.column key).isReadable = true) :
    (Expr.column key).Determines := by
  intro f r s hf hr hs h
  have hopening := opening_eq he hf hr hs h
  cases f with
  | column key' =>
    obtain ⟨table, column⟩ := key
    obtain ⟨table', column'⟩ := key'
    simp only [isReadable, Bool.and_eq_true, Bool.not_eq_true', Option.isSome_iff_exists] at he hf
    obtain ⟨⟨table, rfl⟩, hcolumn⟩ := he
    obtain ⟨⟨table', rfl⟩, hcolumn'⟩ := hf
    obtain ⟨rfl, rfl, hrest⟩ := qualifiedColumn_append_inj hcolumn hcolumn'
      (hr.beginsOutside (by decide)) (hs.beginsOutside (by decide)) h
    exact ⟨rfl, hrest⟩
  | _ => cases hopening

theorem determines_value {v : Value} (he : (Expr.value v).isReadable = true) :
    (Expr.value v).Determines := by
  intro f r s hf hr hs h
  have hopening := opening_eq he hf hr hs h
  cases f with
  | value w =>
    simp only [isReadable, Bool.not_eq_true'] at he hf
    obtain ⟨hvalue, hrest⟩ := (spells_literal he).append_inj (spells_literal hf) hr hs h
    exact ⟨congrArg Expr.value hvalue, hrest⟩
  | _ => cases hopening

theorem determines_list (he : (Expr.list values).isReadable = true) :
    (Expr.list values).Determines := by
  intro f r s hf hr hs h
  have hopening := opening_eq he hf hr hs h
  cases f with
  | list values' =>
    rw [toList_list, toList_list] at h
    have htext : items values ++ ')' :: r = items values' ++ ')' :: s := by simpa using h
    obtain ⟨hplain, hrest⟩ :=
      items_append_inj (forall_of_isReadable he) (forall_of_isReadable hf) htext
    exact ⟨congrArg Expr.list hplain, hrest⟩
  | operation op left right => exact absurd h (list_append_ne he hf rfl)
  | comparison op left right => exact absurd h (list_append_ne he hf rfl)
  | _ => cases hopening

theorem determines_parts (hparts : e.parts? = some (symbol, left, right)) (he : e.isReadable = true)
    (hl : left.Determines) (hr : right.Determines) : e.Determines := by
  intro f r s hf hrstops hsstops h
  cases hparts' : f.parts? with
  | none =>
    have hopening := opening_eq he hf hrstops hsstops h
    -- without a symbol the other one begins differently, or it is a list
    have hbracket : e.opening = .bracket := by
      cases e with
      | operation | comparison => rfl
      | _ => cases hparts
    rw [hbracket] at hopening
    cases f with
    | list values => exact absurd h.symm (list_append_ne hf he hparts)
    | operation | comparison => cases hparts'
    | _ => cases hopening
  | some found =>
    obtain ⟨symbol', left', right'⟩ := found
    obtain ⟨hleft, rfl, hright, hrest⟩ := parts_append_inj hparts hparts' hf hl hr h
    exact ⟨plain_eq_of_parts hparts hparts' hleft hright, hrest⟩

theorem determines (he : e.isReadable = true) : e.Determines := by
  induction e with
  | column key => exact determines_column he
  | value v => exact determines_value he
  | list values => exact determines_list he
  | operation op left right ihl ihr | comparison op left right ihl ihr =>
    obtain ⟨hleft, hright⟩ := Bool.and_eq_true_iff.mp he
    exact determines_parts rfl he (ihl hleft) (ihr hright)

/-- The text does not show what sorts numbers are kept in. -/
theorem text_plain (e : Expr) : e.plain.text = e.text := by
  induction e with
  | column key => rfl
  | value v => exact literal_plain v
  | list values =>
    have hmap : (values.map Value.plain).map literal = values.map literal := by
      rw [List.map_map]
      exact List.map_congr_left fun v _ => literal_plain v
    simp only [plain, text, render, hmap]
  | operation op left right ihl ihr | comparison op left right ihl ihr =>
    simp only [text] at ihl ihr
    simp only [plain, text, render, ihl, ihr]

/-- Two readable expressions have the same text exactly when they are the same up to the sorts that
their numbers are kept in. -/
theorem text_eq_iff (he : e.isReadable = true) (hf : f.isReadable = true) :
    e.text = f.text ↔ e.plain = f.plain := by
  constructor
  · intro h
    have htext : e.text.toList ++ [] = f.text.toList ++ [] := by rw [h]
    exact (determines he f [] [] hf nofun nofun htext).1
  · intro h
    rw [← text_plain e, ← text_plain f, h]

/-- A truth value in a list, beside columns and texts that look like operators, brackets and
quotes. -/
theorem text_eq_iff_marks :
    let name : Expr := .column ⟨some "a = \x60b\x60.c", "1"⟩
    let shown : Value → Expr := fun v =>
      .comparison .or (.comparison .isIn name (.list [v, .text "', '", .bytes [39, 41]]))
        (.operation .sub (.column ⟨some "NULL", "X"⟩) (.value (.int (-5))))
    (shown (.bool true)).isReadable = true ∧ (shown (.uint 1)).isReadable = true ∧
      ((shown (.bool true)).text = (shown (.uint 1)).text ↔
        (shown (.bool true)).plain = (shown (.uint 1)).plain) ∧
      (shown (.bool true)).plain = (shown (.uint 1)).plain := by
  intro name shown
  have hbool : (shown (.bool true)).isReadable = true := by decide
  have hnumber : (shown (.uint 1)).isReadable = true := by decide
  exact ⟨hbool, hnumber, text_eq_iff hbool hnumber, by decide⟩

end Expr

end SchemaQuery
