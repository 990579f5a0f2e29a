import SchemaQuery.Proofs.Constraint

/-! Foreign keys and the rows of the table that they lead to.  A foreign key reads through the key
of its foreign column.  An index reads all keyed columns and keeps the rest of each row, a unique
constraint or a primary key reads one column without repeated rows.  What they let the foreign key
allow is the same: the values that some stored row has in the foreign column. -/

namespace SchemaQuery

variable {σ : Type} {source : RowSource σ} {state : σ} {value w : Value} {row : Row}
  {stored rows : List Row} {columns : List String} {column owner : String}

/-! ### Answers to readings -/

namespace Row

/-- Whether a row has an equal value in a column. -/
def Has (row : Row) (column : String) (value : Value) : Prop :=
  ∃ w, row.get? column = some w ∧ value.same w = true

/-- Whether a row shows what another one has in some columns. -/
def Shows (columns : List String) (shown row : Row) : Prop :=
  ∀ column ∈ columns, ∀ value, shown.Has column value ↔ row.Has column value

/-- Whether rows are what stored rows have in some columns.  It makes no difference whether equal
rows are given once or more often. -/
structure Answer (columns : List String) (stored rows : List Row) : Prop where
  all : ∀ row ∈ stored, ∃ shown ∈ rows, Shows columns shown row
  only : ∀ shown ∈ rows, ∃ row ∈ stored, Shows columns shown row

theorem isIn_columnValues :
    value.isIn (columnValues column rows) = true ↔ ∃ row ∈ rows, row.Has column value := by
  simp only [Value.isIn, columnValues, List.any_eq_true, List.mem_filterMap, Has]
  constructor
  · rintro ⟨w, ⟨row, hrow, hw⟩, hsame⟩
    exact ⟨row, hrow, w, hw, hsame⟩
  · rintro ⟨row, hrow, w, hw, hsame⟩
    exact ⟨w, ⟨row, hrow, hw⟩, hsame⟩

theorem Answer.isIn_columnValues (h : Answer columns stored rows) (hc : column ∈ columns) :
    value.isIn (columnValues column rows) = true ↔ ∃ row ∈ stored, row.Has column value := by
  rw [Row.isIn_columnValues]
  constructor
  · rintro ⟨shown, hshown, hvalue⟩
    obtain ⟨row, hrow, hshows⟩ := h.only shown hshown
    exact ⟨row, hrow, (hshows column hc value).mp hvalue⟩
  · rintro ⟨row, hrow, hvalue⟩
    obtain ⟨shown, hshown, hshows⟩ := h.all row hrow
    exact ⟨shown, hshown, (hshows column hc value).mpr hvalue⟩

/-! ### Rows in memory -/

theorem get?_cons {name : String} {fields : List (String × Value)} :
    get? ⟨(name, w) :: fields⟩ column = if name = column then some w else get? ⟨fields⟩ column := by
  rw [get?, List.find?_cons]
  by_cases hname : name = column
  · simp [hname]
  · simp [hname, get?, beq_eq_false_iff_ne.mpr hname]

theorem get?_select (columns : List String) (row : Row) :
    (row.select columns).get? column = if column ∈ columns then row.get? column else none := by
  induction columns with
  | nil => rfl
  | cons first rest ih =>
    cases hvalue : row.get? first with
    | none =>
      have hselect : row.select (first :: rest) = row.select rest := by simp [select, hvalue]
      rw [hselect, ih]
      by_cases hfirst : column = first
      · simp [hfirst, hvalue]
      · simp [hfirst]
    | some w =>
      have hselect : row.select (first :: rest) = ⟨(first, w) :: (row.select rest).fields⟩ := by
        simp [select, hvalue]
      rw [hselect, get?_cons, ih]
      by_cases hfirst : column = first
      · simp [hfirst, hvalue]
      · simp [hfirst, Ne.symm hfirst]

theorem shows_select (columns : List String) (row : Row) :
    Shows columns (row.select columns) row := by
  intro column hc value
  rw [Has, Has, get?_select, if_pos hc]

theorem has_cons {name : String} {fields : List (String × Value)} :
    Has ⟨(name, w) :: fields⟩ column value ↔ if name = column then value.same w = true
    else Has ⟨fields⟩ column value := by
  rw [Has, get?_cons]
  split <;> simp [Has]

/-- Equal rows have equal values. -/
theorem has_of_sameFields {fields others : List (String × Value)}
    (h : sameFields fields others = true) :
    Has ⟨fields⟩ column value ↔ Has ⟨others⟩ column value := by
  induction fields generalizing others with
  | nil =>
    cases others with
    | nil => exact Iff.rfl
    | cons other rest => cases h
  | cons field rest ih =>
    cases others with
    | nil => cases h
    | cons other more =>
      obtain ⟨name, v⟩ := field
      obtain ⟨otherName, w⟩ := other
      simp only [sameFields, Bool.and_eq_true, beq_iff_eq] at h
      obtain ⟨⟨rfl, hsame⟩, hrest⟩ := h
      rw [has_cons, has_cons, ih hrest, Value.same_iff, Value.same_iff, Value.same_iff.mp hsame]

theorem answer_select (columns : List String) (stored : List Row) :
    Answer columns stored (stored.map (select columns)) := by
  refine ⟨fun row hrow => ⟨_, List.mem_map_of_mem hrow, shows_select columns row⟩, ?_⟩
  exact List.forall_mem_map.mpr fun row hrow => ⟨row, hrow, shows_select columns row⟩

/-- Of equal rows the first stays, and it has all their values. -/
theorem foldl_distinct (rows kept : List Row) :
    let all := rows.foldl (fun kept row => if kept.any row.same then kept else kept ++ [row]) kept
    kept ⊆ all ∧ all ⊆ kept ++ rows ∧
      ∀ row ∈ rows, ∃ first ∈ all, ∀ column value,
        first.Has column value ↔ row.Has column value := by
  induction rows generalizing kept with
  | nil => exact ⟨List.Subset.refl _, by simp, nofun⟩
  | cons row rest ih =>
    dsimp only
    rw [List.foldl_cons]
    split
    · next hany =>
      obtain ⟨hkept, hall, hrest⟩ := ih kept
      obtain ⟨first, hfirst, hsame⟩ := List.any_eq_true.mp hany
      refine ⟨hkept, fun other hother => ?_,
        List.forall_mem_cons.mpr ⟨⟨first, hkept hfirst, fun _ _ => ?_⟩, hrest⟩⟩
      · exact List.mem_append.mpr ((List.mem_append.mp (hall hother)).imp_right
          (List.mem_cons_of_mem row))
      · exact (has_of_sameFields hsame).symm
    · obtain ⟨hkept, hall, hrest⟩ := ih (kept ++ [row])
      obtain ⟨hkept, hrow⟩ := List.append_subset.mp hkept
      refine ⟨hkept, by simpa using hall,
        List.forall_mem_cons.mpr ⟨⟨row, ?_, fun _ _ => Iff.rfl⟩, hrest⟩⟩
      exact hrow List.mem_cons_self

theorem Answer.distinct (h : Answer columns stored rows) :
    Answer columns stored (Row.distinct rows) := by
  obtain ⟨-, hsub, hfirst⟩ := foldl_distinct rows []
  constructor
  · intro row hrow
    obtain ⟨shown, hshown, hshows⟩ := h.all row hrow
    obtain ⟨first, hmem, hsame⟩ := hfirst shown hshown
    exact ⟨first, hmem, fun column hc value => (hsame column value).trans (hshows column hc value)⟩
  · exact fun shown hshown => h.only shown (hsub hshown)

end Row

/-- Whether a source answers every reading of a table with what stored rows have in the wanted
columns. -/
def RowSource.Serves (source : RowSource σ) (state : σ) (owner : String) (stored : List Row) :
    Prop :=
  ∀ columns distinct, ∃ rows after,
    outcome (source.fetch owner columns distinct) state = (.ok rows, after) ∧
    Row.Answer columns stored rows

/-- Rows in memory are read whole, unless their table cannot be read. -/
theorem Memory.serves {m : Memory} (h : owner ∉ m.failing) :
    Memory.source.Serves m owner ((m.rows.lookup owner).getD []) := by
  intro columns distinct
  let stored := (m.rows.lookup owner).getD []
  let rows := stored.map (Row.select columns)
  have hanswer : Row.Answer columns stored rows := Row.answer_select columns stored
  have hfetch : outcome (Memory.source.fetch owner columns distinct) m =
      (.ok (if distinct then Row.distinct rows else rows),
        { m with fetched := m.fetched ++ [⟨owner, columns, distinct⟩] }) := by
    change outcome (Memory.fetch owner columns distinct) m = _
    rw [Memory.fetch]
    refine (outcome_bind_of_ok (outcome_modify _ _)).trans ?_
    refine (outcome_bind_of_ok (outcome_get _)).trans ?_
    simp [h, rows, stored]
  refine ⟨_, _, hfetch, ?_⟩
  cases distinct with
  | false => exact hanswer
  | true => exact hanswer.distinct

/-! ### What a foreign key allows -/

namespace Constraint

variable {key : ForeignKey} {table : Table} {foreign : Column} {c : Constraint} {kind : KeyKind}

/-- Whether a foreign key leads to a column of a table that has a key of its own, of that kind.
Neither of the two has read anything yet. -/
structure LeadsToOwnKey (source : RowSource σ) (state : σ) (key : ForeignKey) (owner : String)
    (foreign : Column) (kind : KeyKind) : Prop where
  ownerName : key.foreign.table = some owner
  column : ∃ table, source.table? state owner = some table ∧
    table.column? key.foreign.column = some foreign
  keyed : ∃ c ∈ foreign.constraints, c.kind? = some kind
  own : ∀ c ∈ foreign.constraints, c.isKeyed = true → c.target = ⟨some owner, foreign.name⟩
  unread : key.cache = none
  keyUnread : ∀ c ∈ foreign.constraints, c.isKeyed = true → c.isFilled = false

theorem target_mem_wanted (i : Index) (table : Table) : i.target.column ∈ i.wanted table := by
  rw [Index.wanted]
  split
  case isTrue h => exact List.contains_iff_mem.mp h
  case isFalse => exact List.mem_cons_self

/-- Each kind of key reads its own column, and it reads it from all stored rows. -/
theorem exists_readsRows_of_serves (hc : c.isKeyed = true)
    (htarget : c.target = ⟨some owner, column⟩) (htable : source.table? state owner = some table)
    (hserves : source.Serves state owner stored) :
    ∃ columns rows after, ReadsRows source state c (.ok rows) after ∧ column ∈ columns ∧
      Row.Answer columns stored rows := by
  have howner : c.target.table = some owner := by rw [htarget]
  have hcolumn : c.target.column = column := by rw [htarget]
  cases c with
  | index i =>
    obtain ⟨rows, after, hfetch, hanswer⟩ := hserves (i.wanted table) false
    exact ⟨_, rows, after, .index howner htable hfetch, hcolumn ▸ target_mem_wanted i table,
      hanswer⟩
  | unique u =>
    obtain ⟨rows, after, hfetch, hanswer⟩ := hserves [u.target.column] true
    exact ⟨_, rows, after, .unique howner hfetch, List.mem_singleton.mpr hcolumn.symm, hanswer⟩
  | primary u =>
    obtain ⟨rows, after, hfetch, hanswer⟩ := hserves [u.target.column] true
    exact ⟨_, rows, after, .primary howner hfetch, List.mem_singleton.mpr hcolumn.symm, hanswer⟩
  | foreign f => cases hc

theorem LeadsToOwnKey.exists_leadsTo (h : LeadsToOwnKey source state key owner foreign kind) :
    ∃ table place c, LeadsTo source state key table foreign place c ∧
      source.table? state owner = some table ∧ c ∈ foreign.constraints ∧ c.isKeyed = true := by
  obtain ⟨table, htable, hcolumn⟩ := h.column
  obtain ⟨own, hown, hkind⟩ := h.keyed
  cases hplace : Column.findIndex? foreign.constraints (.kind .index) with
  | none =>
    have hnot := Column.findIndex?_eq_none_iff.mp hplace own hown
    rw [own.answers_index, isKeyed, hkind] at hnot
    cases hnot
  | some place =>
    obtain ⟨front, c, rest, heq, rfl, -⟩ := Column.findIndex?_eq_some_iff.mp hplace
    have hfound : foreign.constraints[front.length]? = some c := by simp [heq]
    exact ⟨table, _, c, ⟨⟨owner, h.ownerName, htable⟩, hcolumn, hplace, hfound⟩, htable,
      by simp [heq], isKeyed_of_findIndex hplace hfound⟩

/-- A foreign key allows a value exactly when some stored row of the table that it leads to has an
equal value in the foreign column, and refuses every other one.  Of what kind the key of that column
is makes no difference. -/
theorem check_foreign_stored (h : LeadsToOwnKey source state key owner foreign kind)
    (hserves : source.Serves state owner stored) (value : Value) :
    let verdict := (((Constraint.foreign key).check source value).run state).1.1
    (verdict = .ok () ↔ ∃ row ∈ stored, row.Has foreign.name value) ∧
      (verdict = .error (.constraint (.notAKey value key.foreign)) ↔
        ¬∃ row ∈ stored, row.Has foreign.name value) := by
  intro verdict
  obtain ⟨table, place, c, hleads, htable, hc, hkeyed⟩ := h.exists_leadsTo
  have htarget := h.own c hc hkeyed
  obtain ⟨columns, rows, after, hreads, hcolumn, hanswer⟩ :=
    exists_readsRows_of_serves hkeyed htarget htable hserves
  have hunread : (Constraint.foreign key).isFilled = false := by rw [isFilled, h.unread]; rfl
  obtain ⟨filled, hholds, hfill⟩ :=
    fills_of_reads hunread (.read hleads (h.keyUnread c hc hkeyed) hreads)
  have hverdict : verdict = if value.isIn (columnValues foreign.name rows) then .ok ()
      else .error (.constraint (.notAKey value key.foreign)) := by
    simp only [verdict]
    rw [run_check, hfill]
    dsimp only
    rw [hholds.verdict, htarget]
    rfl
  rw [← hanswer.isIn_columnValues hcolumn, hverdict]
  cases value.isIn (columnValues foreign.name rows) <;> simp

/-- An index with an equal value that is kept in another way, next to rows without the column; the
other two kinds of keys give the same verdicts. -/
theorem check_foreign_stored_index :
    let key : ForeignKey :=
      { name := "fk", target := ⟨some "orders", "user_id"⟩, foreign := ⟨some "users", "id"⟩ }
    let id (kind : KeyKind) : Column :=
      { name := "id", owner := some "users", type := "int",
        constraints := [.foreign key, Constraint.keyed kind ⟨some "users", "id"⟩ none] }
    let name : Column :=
      { name := "name", owner := some "users", type := "text",
        constraints := [Constraint.keyed .unique ⟨some "users", "name"⟩ none] }
    let stored : List Row :=
      [⟨[("id", .int 1), ("name", .text "a")]⟩, ⟨[("name", .text "b")]⟩,
        ⟨[("id", .uint 1), ("name", .null)]⟩]
    let known (kind : KeyKind) : Memory :=
      { snapshots := [{ name := "users", columns := [id kind, name] }], current := [("users", 0)]
        rows := [("users", stored)] }
    let verdict (kind : KeyKind) (value : Value) : Except Error Unit :=
      (((Constraint.foreign key).check Memory.source value).run (known kind)).1.1
    LeadsToOwnKey Memory.source (known .index) key "users" (id .index) .index ∧
      Memory.source.Serves (known .index) "users" stored ∧
      ((verdict .index (.uint 1) = .ok () ↔ ∃ row ∈ stored, row.Has "id" (.uint 1)) ∧
        (verdict .index (.uint 1) = .error (.constraint (.notAKey (.uint 1) ⟨some "users", "id"⟩)) ↔
          ¬∃ row ∈ stored, row.Has "id" (.uint 1))) ∧
      [verdict .index, verdict .unique, verdict .primary].map (· (.uint 1)) =
        [.ok (), .ok (), .ok ()] := by
  intro key id name stored known verdict
  have hleads : LeadsToOwnKey Memory.source (known .index) key "users" (id .index) .index := by
    refine ⟨rfl, ⟨_, rfl, rfl⟩, ⟨_, List.mem_cons_of_mem _ List.mem_cons_self, rfl⟩, ?_, rfl, ?_⟩
    · exact List.forall_mem_cons.mpr ⟨nofun, List.forall_mem_singleton.mpr fun _ => rfl⟩
    · exact List.forall_mem_cons.mpr ⟨nofun, List.forall_mem_singleton.mpr fun _ => rfl⟩
  have hserves : Memory.source.Serves (known .index) "users" stored :=
    Memory.serves List.not_mem_nil
  exact ⟨hleads, hserves, check_foreign_stored hleads hserves (.uint 1), rfl⟩

end Constraint

end SchemaQuery
