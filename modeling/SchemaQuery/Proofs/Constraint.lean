import SchemaQuery.Constraint.Memory
import SchemaQuery.Proofs.Action
import SchemaQuery.Proofs.Column.Lookup
import SchemaQuery.Proofs.Value

/-! Constraints as snapshots.  A constraint looks at its source until one check has found and read
everything that it needs; the checks before that one end with the error of the look-up or of the
reading that failed, and leave the constraint as it was.  The check that reads everything keeps a
set of values, and from then on that set alone decides, whatever becomes of the source. -/

namespace SchemaQuery

variable {σ : Type} {source : RowSource σ} {state after : σ} {value : Value} {rows : List Row}
  {column : String}

/-! ### The values of a column in rows -/

def columnValues (column : String) (rows : List Row) : List Value :=
  rows.filterMap fun row => row.get? column

namespace Index

theorem isIn_putEntry {w : Value} {row : Row} {found : List (Value × Row)} :
    value.isIn ((putEntry w row found).map (·.1)) = true ↔
      value.isIn (found.map (·.1)) = true ∨ value.isIn [w] = true := by
  induction found with
  | nil => simp [putEntry, Value.isIn]
  | cons entry rest ih =>
    obtain ⟨known, old⟩ := entry
    rw [putEntry]
    split
    · next hsame =>
      -- the entry keeps a value that is the same as the new one
      have hw : known.unsigned = w.unsigned := Value.same_iff.mp hsame
      have hknown : value.isIn [w] = true → value.isIn (known :: rest.map (·.1)) = true := by
        simp only [Value.isIn_iff, List.mem_singleton, exists_eq_left]
        exact fun hvalue => ⟨known, List.mem_cons_self, hvalue.trans hw.symm⟩
      exact ⟨.inl, fun h => h.elim id hknown⟩
    · rw [List.map_cons, List.map_cons, Value.isIn_cons, Value.isIn_cons, ih, or_assoc]

def putRow (column : String) (found : List (Value × Row)) (row : Row) : List (Value × Row) :=
  match row.get? column with
  | some w => putEntry w (row.erase column) found
  | none => found

theorem isIn_foldl_putRow {found : List (Value × Row)} :
    value.isIn ((rows.foldl (putRow column) found).map (·.1)) = true ↔
      value.isIn (found.map (·.1)) = true ∨ value.isIn (columnValues column rows) = true := by
  induction rows generalizing found with
  | nil => simp [columnValues, Value.isIn]
  | cons row rest ih =>
    rw [List.foldl_cons, ih, putRow]
    cases hrow : row.get? column with
    | none =>
      have hvalues : columnValues column (row :: rest) = columnValues column rest :=
        List.filterMap_cons_none hrow
      rw [hvalues]
    | some w =>
      have hvalues : columnValues column (row :: rest) = [w] ++ columnValues column rest :=
        List.filterMap_cons_some hrow
      rw [hvalues, isIn_putEntry, Value.isIn_append, or_assoc]

theorem isIn_entries :
    value.isIn ((entries column rows).map (·.1)) = value.isIn (columnValues column rows) := by
  have hentries : entries column rows = rows.foldl (putRow column) [] := rfl
  rw [Bool.eq_iff_iff, hentries, isIn_foldl_putRow]
  simp [Value.isIn]

end Index

namespace Constraint

variable {c filled : Constraint} {values : List Value} {result : Except Error (List Value)}

/-! ### What a cache holds -/

/-- Whether the constraint has filled its cache. -/
def isFilled : Constraint → Bool
  | .index i => i.cache.isSome
  | .unique u | .primary u => u.cache.isSome
  | .foreign f => f.cache.isSome

/-- The values that the cache holds. -/
def keys : Constraint → List Value
  | .index i => i.keys
  | .unique u | .primary u => u.cache.getD []
  | .foreign f => f.cache.getD []

/-- The keyed constraint with the rows that were read in its cache. -/
def fillFrom (rows : List Row) : Constraint → Constraint
  | .index i => .index { i with cache := some (Index.entries i.target.column rows) }
  | .unique u => .unique { u with cache := some (Unique.present u.target.column rows) }
  | .primary u => .primary { u with cache := some (Unique.present u.target.column rows) }
  | .foreign f => .foreign f

/-- Whether a constraint is another one with just the given values in its cache. -/
structure Holds (filled c : Constraint) (values : List Value) : Prop where
  same : filled.withoutCache = c.withoutCache
  isFilled : filled.isFilled = true
  keys : ∀ value : Value, value.isIn filled.keys = value.isIn values

theorem holds_fillFrom (hc : c.isKeyed = true) :
    (c.fillFrom rows).Holds c (columnValues c.target.column rows) := by
  cases c with
  | index i => exact ⟨rfl, rfl, fun _ => Index.isIn_entries⟩
  | unique u => exact ⟨rfl, rfl, fun _ => Value.isIn_distinct⟩
  | primary u => exact ⟨rfl, rfl, fun _ => Value.isIn_distinct⟩
  | foreign f => cases hc

/-- What a set of values says about a value: a unique constraint does not allow a value in the set,
and a foreign key allows no other one. -/
def decided (values : List Value) (value : Value) : Constraint → Except Error Unit
  | .index _ => .ok ()
  | .unique u | .primary u =>
    if value.isIn values then .error (.constraint (.notUnique value u.target)) else .ok ()
  | .foreign f =>
    if value.isIn values then .ok () else .error (.constraint (.notAKey value f.foreign))

theorem Holds.verdict (h : filled.Holds c values) :
    filled.verdict value = c.decided values value := by
  have hkeys := h.keys value
  have hsame := h.same
  cases filled with
  | index i =>
    cases c with
    | index j => rfl
    | _ => cases hsame
  | unique u =>
    cases c with
    | unique w =>
      have htarget : u.target = w.target := congrArg Constraint.target hsame
      rw [Constraint.verdict, decided, ← hkeys, ← htarget]
      rfl
    | _ => cases hsame
  | primary u =>
    cases c with
    | primary w =>
      have htarget : u.target = w.target := congrArg Constraint.target hsame
      rw [Constraint.verdict, decided, ← hkeys, ← htarget]
      rfl
    | _ => cases hsame
  | foreign f =>
    cases c with
    | foreign g =>
      have hrule : { f with cache := none : ForeignKey } = { g with cache := none } :=
        Constraint.foreign.inj hsame
      have hforeign : f.foreign = g.foreign := (congrArg ForeignKey.foreign hrule :)
      rw [Constraint.verdict, decided, ← hkeys, ← hforeign]
      rfl
    | _ => cases hsame

/-! ### What a constraint reads -/

/-- The ways in which the rows for a keyed constraint are read, with what comes of it and the state
after it. -/
inductive ReadsRows (source : RowSource σ) (state : σ) :
    Constraint → Except Error (List Row) → σ → Prop
  | unowned {c : Constraint} (hc : c.isKeyed = true) (howner : c.target.table = none) :
    ReadsRows source state c (.error (.schema (.unowned c.target.column))) state
  | unknown {i : Index} {owner : String} (howner : i.target.table = some owner)
    (htable : source.table? state owner = none) :
    ReadsRows source state (.index i) (.error (.table (.unknown owner))) state
  | index {i : Index} {owner : String} {table : Table} {result : Except Error (List Row)}
    {after : σ} (howner : i.target.table = some owner)
    (htable : source.table? state owner = some table)
    (h : outcome (source.fetch owner (i.wanted table) false) state = (result, after)) :
    ReadsRows source state (.index i) result after
  | unique {u : Unique} {owner : String} {result : Except Error (List Row)} {after : σ}
    (howner : u.target.table = some owner)
    (h : outcome (source.fetch owner [u.target.column] true) state = (result, after)) :
    ReadsRows source state (.unique u) result after
  | primary {u : Unique} {owner : String} {result : Except Error (List Row)} {after : σ}
    (howner : u.target.table = some owner)
    (h : outcome (source.fetch owner [u.target.column] true) state = (result, after)) :
    ReadsRows source state (.primary u) result after

/-- The constraint that a foreign key reads through: the keyed one of the column that it leads to,
at its place. -/
structure LeadsTo (source : RowSource σ) (state : σ) (key : ForeignKey) (table : Table)
    (column : Column) (place : Nat) (keyed : Constraint) : Prop where
  tableFound : ∃ owner, key.foreign.table = some owner ∧ source.table? state owner = some table
  columnFound : table.column? key.foreign.column = some column
  placeFound : Column.findIndex? column.constraints (.kind .index) = some place
  keyedFound : column.constraints[place]? = some keyed

/-- The ways in which a constraint with an empty cache reads its set of values.  A foreign key takes
the values of the keyed constraint that it reads through, and leaves that one with a filled cache
too. -/
inductive Reads (source : RowSource σ) (state : σ) :
    Constraint → Except Error (List Value) → σ → Prop
  | keyed {c : Constraint} {result : Except Error (List Row)} {after : σ}
    (h : ReadsRows source state c result after) :
    Reads source state c (result.map (columnValues c.target.column)) after
  | unowned {key : ForeignKey} (howner : key.foreign.table = none) :
    Reads source state (.foreign key) (.error (.schema (.unowned key.foreign.column))) state
  | unknown {key : ForeignKey} {owner : String} (howner : key.foreign.table = some owner)
    (htable : source.table? state owner = none) :
    Reads source state (.foreign key) (.error (.table (.unknown owner))) state
  | noColumn {key : ForeignKey} {owner : String} {table : Table}
    (howner : key.foreign.table = some owner) (htable : source.table? state owner = some table)
    (hcolumn : table.column? key.foreign.column = none) :
    Reads source state (.foreign key)
      (.error (.schema (.unknownForeignColumn key.foreign.qualified))) state
  | noIndex {key : ForeignKey} {owner : String} {table : Table} {column : Column}
    (howner : key.foreign.table = some owner) (htable : source.table? state owner = some table)
    (hcolumn : table.column? key.foreign.column = some column)
    (hnone : column.find? (.kind .index) = none) :
    Reads source state (.foreign key) (.error (.constraint (.noIndex key.foreign))) state
  | known {key : ForeignKey} {table : Table} {column : Column} {place : Nat} {keyed : Constraint}
    (hleads : LeadsTo source state key table column place keyed) (hkeyed : keyed.isFilled = true) :
    Reads source state (.foreign key) (.ok keyed.keys)
      (source.changeTable table.name (fun t => t.setConstraint column.name place keyed) state)
  | failed {key : ForeignKey} {table : Table} {column : Column} {place : Nat} {keyed : Constraint}
    {e : Error} {after : σ} (hleads : LeadsTo source state key table column place keyed)
    (hkeyed : keyed.isFilled = false) (h : ReadsRows source state keyed (.error e) after) :
    Reads source state (.foreign key) (.error e) after
  | read {key : ForeignKey} {table : Table} {column : Column} {place : Nat} {keyed : Constraint}
    {rows : List Row} {after : σ} (hleads : LeadsTo source state key table column place keyed)
    (hkeyed : keyed.isFilled = false) (h : ReadsRows source state keyed (.ok rows) after) :
    Reads source state (.foreign key) (.ok (columnValues keyed.target.column rows))
      (source.changeTable table.name (fun t =>
        t.setConstraint column.name place (keyed.fillFrom rows)) after)

/-! ### Filling the cache of a keyed constraint -/

theorem eq_none_of_isSome {α : Type} {cache : Option α} (h : cache.isSome = false) :
    cache = none := by
  cases cache with
  | none => rfl
  | some kept => cases h

theorem outcome_owner_of_some {key : ColumnKey} {owner : String} (h : key.table = some owner) :
    outcome (liftM key.owner : Action σ String) state = (.ok owner, state) := by
  rw [outcome_lift, ColumnKey.owner, h]

theorem outcome_owner_of_none {key : ColumnKey} (h : key.table = none) :
    outcome (liftM key.owner : Action σ String) state =
      (.error (.schema (.unowned key.column)), state) := by
  rw [outcome_lift, ColumnKey.owner, h]

theorem outcome_table_of_some {owner : String} {table : Table}
    (h : source.table? state owner = some table) :
    outcome (source.table owner) state = (.ok table, state) := by
  rw [RowSource.table]
  refine (outcome_bind_of_ok (outcome_get state)).trans ?_
  rw [h]
  rfl

theorem outcome_table_of_none {owner : String} (h : source.table? state owner = none) :
    outcome (source.table owner) state = (.error (.table (.unknown owner)), state) := by
  rw [RowSource.table]
  refine (outcome_bind_of_ok (outcome_get state)).trans ?_
  rw [h]
  rfl

section

variable {i : Index} {u : Unique} {owner : String} {table : Table} {read : Except Error (List Row)}

theorem outcome_fillUnique_unowned (hcache : u.cache = none) (howner : u.target.table = none) :
    outcome (u.fill source) state = (.error (.schema (.unowned u.target.column)), state) := by
  rw [Unique.fill, hcache]
  exact outcome_bind_of_error (outcome_owner_of_none howner)

theorem outcome_fillUnique (hcache : u.cache = none) (howner : u.target.table = some owner)
    (h : outcome (source.fetch owner [u.target.column] true) state = (read, after)) :
    outcome (u.fill source) state =
      (read.map fun rows => { u with cache := some (Unique.present u.target.column rows) },
        after) := by
  rw [Unique.fill, hcache]
  refine (outcome_bind_of_ok (outcome_owner_of_some howner)).trans ?_
  rw [outcome_bind, h]
  cases read <;> rfl

theorem outcome_fillIndex_unowned (hcache : i.cache = none) (howner : i.target.table = none) :
    outcome (i.fill source) state = (.error (.schema (.unowned i.target.column)), state) := by
  rw [Index.fill, hcache]
  exact outcome_bind_of_error (outcome_owner_of_none howner)

theorem outcome_fillIndex_unknown (hcache : i.cache = none) (howner : i.target.table = some owner)
    (htable : source.table? state owner = none) :
    outcome (i.fill source) state = (.error (.table (.unknown owner)), state) := by
  rw [Index.fill, hcache]
  refine (outcome_bind_of_ok (outcome_owner_of_some howner)).trans ?_
  exact outcome_bind_of_error (outcome_table_of_none htable)

theorem outcome_fillIndex (hcache : i.cache = none) (howner : i.target.table = some owner)
    (htable : source.table? state owner = some table)
    (h : outcome (source.fetch owner (i.wanted table) false) state = (read, after)) :
    outcome (i.fill source) state =
      (read.map fun rows => { i with cache := some (Index.entries i.target.column rows) },
        after) := by
  rw [Index.fill, hcache]
  refine (outcome_bind_of_ok (outcome_owner_of_some howner)).trans ?_
  refine (outcome_bind_of_ok (outcome_table_of_some htable)).trans ?_
  rw [outcome_bind, h]
  cases read <;> rfl

theorem outcome_fill_of_readsRows (hc : c.isFilled = false)
    (h : ReadsRows source state c read after) :
    outcome (c.fill source) state = (read.map fun rows => c.fillFrom rows, after) := by
  cases h with
  | unowned hkeyed howner =>
    cases c with
    | index i =>
      rw [fill, outcome_map, outcome_fillIndex_unowned (eq_none_of_isSome hc) howner]; rfl
    | unique u =>
      rw [fill, outcome_map, outcome_fillUnique_unowned (eq_none_of_isSome hc) howner]; rfl
    | primary u =>
      rw [fill, outcome_map, outcome_fillUnique_unowned (eq_none_of_isSome hc) howner]; rfl
    | foreign f => cases hkeyed
  | unknown howner htable =>
    rw [fill, outcome_map, outcome_fillIndex_unknown (eq_none_of_isSome hc) howner htable]; rfl
  | index howner htable h =>
    rw [fill, outcome_map, outcome_fillIndex (eq_none_of_isSome hc) howner htable h]
    cases read <;> rfl
  | unique howner h =>
    rw [fill, outcome_map, outcome_fillUnique (eq_none_of_isSome hc) howner h]
    cases read <;> rfl
  | primary howner h =>
    rw [fill, outcome_map, outcome_fillUnique (eq_none_of_isSome hc) howner h]
    cases read <;> rfl

theorem exists_readsRows (source : RowSource σ) (state : σ) (hc : c.isKeyed = true) :
    ∃ read after, ReadsRows source state c read after := by
  cases howner : c.target.table with
  | none => exact ⟨_, _, .unowned hc howner⟩
  | some owner =>
    cases c with
    | index i =>
      cases htable : source.table? state owner with
      | none => exact ⟨_, _, .unknown howner htable⟩
      | some table => exact ⟨_, _, .index howner htable rfl⟩
    | unique u => exact ⟨_, _, .unique howner rfl⟩
    | primary u => exact ⟨_, _, .primary howner rfl⟩
    | foreign f => cases hc

theorem isKeyed_of_readsRows (h : ReadsRows source state c read after) : c.isKeyed = true := by
  cases h with
  | unowned hc => exact hc
  | _ => rfl

end

theorem fill_of_isFilled (h : c.isFilled = true) : c.fill source = pure c := by
  cases c with
  | index i =>
    obtain ⟨found, hcache⟩ := Option.isSome_iff_exists.mp h
    rw [fill, Index.fill, hcache, map_pure]
  | unique u | primary u =>
    obtain ⟨found, hcache⟩ := Option.isSome_iff_exists.mp h
    rw [fill, Unique.fill, hcache, map_pure]
  | foreign f =>
    obtain ⟨found, hcache⟩ := Option.isSome_iff_exists.mp h
    rw [fill, ForeignKey.fill, hcache, map_pure]

/-! ### Filling the cache of a foreign key -/

theorem fillKeyed_eq (hc : c.isKeyed = true) :
    c.fillKeyed source = (fun filled => (filled, filled.keys)) <$> c.fill source := by
  cases c with
  | index i => rw [fill, fillKeyed, Functor.map_map, map_eq_pure_bind]; rfl
  | unique u | primary u => rw [fill, fillKeyed, Functor.map_map, map_eq_pure_bind]; rfl
  | foreign f => cases hc

theorem isKeyed_of_findIndex {constraints : List Constraint} {place : Nat} {keyed : Constraint}
    (hplace : Column.findIndex? constraints (.kind .index) = some place)
    (hkeyed : constraints[place]? = some keyed) : keyed.isKeyed = true := by
  obtain ⟨front, c, rest, rfl, rfl, hbest⟩ := Column.findIndex?_eq_some_iff.mp hplace
  have hsame : c = keyed := by simpa using hkeyed
  rw [← hsame, ← c.answers_index]
  exact hbest.answers

section

variable {key : ForeignKey} {owner : String} {table : Table} {place : Nat} {keyed : Constraint}
  {target : Column}

theorem outcome_foreignKeys_unowned (howner : key.foreign.table = none) :
    outcome (key.foreignKeys source) state =
      (.error (.schema (.unowned key.foreign.column)), state) := by
  rw [ForeignKey.foreignKeys]
  exact outcome_bind_of_error (outcome_owner_of_none howner)

theorem outcome_foreignKeys_unknown (howner : key.foreign.table = some owner)
    (htable : source.table? state owner = none) :
    outcome (key.foreignKeys source) state = (.error (.table (.unknown owner)), state) := by
  rw [ForeignKey.foreignKeys]
  refine (outcome_bind_of_ok (outcome_owner_of_some howner)).trans ?_
  exact outcome_bind_of_error (outcome_table_of_none htable)

theorem outcome_foreignKeys_noColumn (howner : key.foreign.table = some owner)
    (htable : source.table? state owner = some table)
    (hcolumn : table.column? key.foreign.column = none) :
    outcome (key.foreignKeys source) state =
      (.error (.schema (.unknownForeignColumn key.foreign.qualified)), state) := by
  rw [ForeignKey.foreignKeys]
  refine (outcome_bind_of_ok (outcome_owner_of_some howner)).trans ?_
  refine (outcome_bind_of_ok (outcome_table_of_some htable)).trans ?_
  rw [hcolumn]
  rfl

theorem outcome_foreignKeys_noIndex (howner : key.foreign.table = some owner)
    (htable : source.table? state owner = some table)
    (hcolumn : table.column? key.foreign.column = some target)
    (hnone : target.find? (.kind .index) = none) :
    outcome (key.foreignKeys source) state =
      (.error (.constraint (.noIndex key.foreign)), state) := by
  rw [ForeignKey.foreignKeys]
  refine (outcome_bind_of_ok (outcome_owner_of_some howner)).trans ?_
  refine (outcome_bind_of_ok (outcome_table_of_some htable)).trans ?_
  rw [hcolumn]
  dsimp only
  split
  · rfl
  · next place hplace =>
    rw [Column.find?, hplace, Option.bind_some] at hnone
    rw [hnone]
    rfl

/-- Values that are read through a keyed constraint are those that its cache holds then. -/
theorem outcome_foreignKeys_of_leadsTo
    (hleads : LeadsTo source state key table target place keyed) :
    outcome (key.foreignKeys source) state = match outcome (keyed.fill source) state with
      | (.ok filled, after) => (.ok filled.keys,
          source.changeTable table.name (fun t => t.setConstraint target.name place filled) after)
      | (.error e, after) => (.error e, after) := by
  obtain ⟨owner, howner, htable⟩ := hleads.tableFound
  have hkeyed := isKeyed_of_findIndex hleads.placeFound hleads.keyedFound
  rw [ForeignKey.foreignKeys]
  refine (outcome_bind_of_ok (outcome_owner_of_some howner)).trans ?_
  refine (outcome_bind_of_ok (outcome_table_of_some htable)).trans ?_
  rw [hleads.columnFound]
  dsimp only
  rw [hleads.placeFound]
  dsimp only
  rw [hleads.keyedFound]
  dsimp only
  rw [outcome_bind, fillKeyed_eq hkeyed, outcome_map]
  cases outcome (keyed.fill source) state with
  | mk result after => cases result <;> rfl

theorem outcome_fillForeign (hcache : key.cache = none) : outcome (key.fill source) state =
    ((outcome (key.foreignKeys source) state).1.map fun keys => { key with cache := some keys },
      (outcome (key.foreignKeys source) state).2) := by
  rw [ForeignKey.fill, hcache]
  dsimp only
  rw [bind_pure_comp, outcome_map]

end

/-! ### Filling any cache -/

/-- The outcome that a reading leads to: its error, or the constraint with what was read in its
cache. -/
def Fills (c : Constraint) (result : Except Error (List Value)) (after : σ)
    (out : Except Error Constraint × σ) : Prop :=
  match result with
  | .error e => out = (.error e, after)
  | .ok values => ∃ filled : Constraint, filled.Holds c values ∧ out = (.ok filled, after)

theorem fills_of_foreignKeys {key : ForeignKey} {keys : List Value} (hcache : key.cache = none)
    (h : outcome (key.foreignKeys source) state = (.ok keys, after))
    (hkeys : ∀ v : Value, v.isIn keys = v.isIn values) :
    Fills (.foreign key) (.ok values) after
      (outcome ((Constraint.foreign key).fill source) state) := by
  refine ⟨.foreign { key with cache := some keys }, ⟨rfl, rfl, hkeys⟩, ?_⟩
  rw [fill, outcome_map, outcome_fillForeign hcache, h]
  rfl

theorem fills_of_foreignKeys_error {key : ForeignKey} {e : Error} (hcache : key.cache = none)
    (h : outcome (key.foreignKeys source) state = (.error e, after)) :
    Fills (.foreign key) (.error e) after
      (outcome ((Constraint.foreign key).fill source) state) := by
  rw [fill, outcome_map, outcome_fillForeign hcache, h]
  rfl

theorem fills_of_reads (hc : c.isFilled = false) (h : Reads source state c result after) :
    Fills c result after (outcome (c.fill source) state) := by
  cases h with
  | @keyed c read after h =>
    rw [outcome_fill_of_readsRows hc h]
    cases read with
    | error e => rfl
    | ok rows => exact ⟨_, holds_fillFrom (isKeyed_of_readsRows h), rfl⟩
  | unowned howner =>
    exact fills_of_foreignKeys_error (eq_none_of_isSome hc) (outcome_foreignKeys_unowned howner)
  | unknown howner htable =>
    exact fills_of_foreignKeys_error (eq_none_of_isSome hc)
      (outcome_foreignKeys_unknown howner htable)
  | noColumn howner htable hcolumn =>
    exact fills_of_foreignKeys_error (eq_none_of_isSome hc)
      (outcome_foreignKeys_noColumn howner htable hcolumn)
  | noIndex howner htable hcolumn hindex =>
    exact fills_of_foreignKeys_error (eq_none_of_isSome hc)
      (outcome_foreignKeys_noIndex howner htable hcolumn hindex)
  | known hleads hkeyed =>
    refine fills_of_foreignKeys (eq_none_of_isSome hc) ?_ fun _ => rfl
    rw [outcome_foreignKeys_of_leadsTo hleads, fill_of_isFilled hkeyed, outcome_pure]
  | failed hleads hkeyed h =>
    refine fills_of_foreignKeys_error (eq_none_of_isSome hc) ?_
    rw [outcome_foreignKeys_of_leadsTo hleads, outcome_fill_of_readsRows hkeyed h]
    rfl
  | read hleads hkeyed h =>
    refine fills_of_foreignKeys (eq_none_of_isSome hc) ?_
      (holds_fillFrom (isKeyed_of_readsRows h)).keys
    rw [outcome_foreignKeys_of_leadsTo hleads, outcome_fill_of_readsRows hkeyed h]
    rfl

theorem exists_reads_foreign (source : RowSource σ) (state : σ) (key : ForeignKey) :
    ∃ result after, Reads source state (.foreign key) result after := by
  cases howner : key.foreign.table with
  | none => exact ⟨_, _, .unowned howner⟩
  | some owner =>
    cases htable : source.table? state owner with
    | none => exact ⟨_, _, .unknown howner htable⟩
    | some table =>
      cases hcolumn : table.column? key.foreign.column with
      | none => exact ⟨_, _, .noColumn howner htable hcolumn⟩
      | some column =>
        cases hfind : column.find? (.kind .index) with
        | none => exact ⟨_, _, .noIndex howner htable hcolumn hfind⟩
        | some keyed =>
          obtain ⟨place, hplace, hkeyed⟩ := Option.bind_eq_some_iff.mp hfind
          have hleads : LeadsTo source state key table column place keyed :=
            ⟨⟨owner, howner, htable⟩, hcolumn, hplace, hkeyed⟩
          cases hfilled : keyed.isFilled with
          | true => exact ⟨_, _, .known hleads hfilled⟩
          | false =>
            obtain ⟨read, after, h⟩ :=
              exists_readsRows source state (isKeyed_of_findIndex hplace hkeyed)
            cases read with
            | error e => exact ⟨_, _, .failed hleads hfilled h⟩
            | ok rows => exact ⟨_, _, .read hleads hfilled h⟩

theorem exists_reads (source : RowSource σ) (state : σ) (c : Constraint) :
    ∃ result after, Reads source state c result after := by
  have hkeyed : ∀ keyed : Constraint, keyed.isKeyed = true →
      ∃ result after, Reads source state keyed result after := by
    intro keyed hkeyed
    obtain ⟨read, after, h⟩ := exists_readsRows source state hkeyed
    exact ⟨_, _, .keyed h⟩
  cases c with
  | index i => exact hkeyed (.index i) rfl
  | unique u => exact hkeyed (.unique u) rfl
  | primary u => exact hkeyed (.primary u) rfl
  | foreign key => exact exists_reads_foreign source state key

/-- An error is the only end that a reading has. -/
theorem Reads.error_unique {e : Error} {last : σ} (hc : c.isFilled = false)
    (h : Reads source state c (.error e) after) (hresult : Reads source state c result last) :
    result = .error e ∧ last = after := by
  have herror : outcome (c.fill source) state = (.error e, after) := fills_of_reads hc h
  have hfills := fills_of_reads hc hresult
  rw [herror] at hfills
  cases result with
  | error e' =>
    cases hfills
    exact ⟨rfl, rfl⟩
  | ok values =>
    obtain ⟨filled, -, hout⟩ := hfills
    cases hout

/-! ### Checks one after the other -/

/-- A check of a value, with the source that it finds. -/
structure Call (σ : Type) where
  source : RowSource σ
  state : σ
  value : Value

/-- The verdicts of calls, each with the state that it leaves, and the constraint after the last
one.  The source may become any other one between two calls. -/
def checks (c : Constraint) : List (Call σ) → List (Except Error Unit × σ) × Constraint
  | [] => ([], c)
  | call :: rest =>
    let ((verdict, learned), after) := (c.check call.source call.value).run call.state
    let (verdicts, last) := learned.checks rest
    ((verdict, after) :: verdicts, last)

/-- What a filled constraint does with a call: it compares the value with a set, and leaves the
state as it is. -/
def recalled (c : Constraint) (values : List Value) (call : Call σ) : Except Error Unit × σ :=
  (c.decided values call.value, call.state)

/-- Whether a call ends with the error of what it could not find or read, which is the only end that
its reading has. -/
def FailsAt (c : Constraint) (call : Call σ) (answer : Except Error Unit × σ) : Prop :=
  ∃ e, answer.1 = .error e ∧ ∀ result after,
    Reads call.source call.state c result after ↔ result = .error e ∧ after = answer.2

theorem failsAt_of_reads {call : Call σ} {e : Error} (hc : c.isFilled = false)
    (h : Reads call.source call.state c (.error e) after) : c.FailsAt call (.error e, after) := by
  refine ⟨e, rfl, fun result last => ⟨h.error_unique hc, ?_⟩⟩
  rintro ⟨rfl, rfl⟩
  exact h

theorem run_check : (c.check source value).run state = match outcome (c.fill source) state with
    | (.ok filled, after) => ((filled.verdict value, filled), after)
    | (.error e, after) => ((.error e, c), after) := by
  unfold outcome Constraint.check
  simp only [ExceptT.run, StateT.run, bind, StateT.bind]
  cases c.fill source state with
  | mk result after => cases result <;> rfl

theorem checks_of_holds {calls : List (Call σ)} (h : filled.Holds c values) :
    filled.checks calls = (calls.map (c.recalled values), filled) := by
  induction calls with
  | nil => rfl
  | cons call rest ih =>
    rw [checks, run_check, fill_of_isFilled h.isFilled, outcome_pure]
    dsimp only
    rw [ih, h.verdict]
    rfl

/-- A constraint fails with what it cannot find or read until a call reads everything; the set that
this call reads decides it and all later ones, on the constraint and on every copy of it, and the
source is not touched any more. -/
theorem checks_snapshot (c : Constraint) (hc : c.isFilled = false) (calls : List (Call σ)) :
    (∃ answers, List.Forall₂ c.FailsAt calls answers ∧ c.checks calls = (answers, c)) ∨
    ∃ failing first later answers values after filled,
      calls = failing ++ first :: later ∧ List.Forall₂ c.FailsAt failing answers ∧
      Reads first.source first.state c (.ok values) after ∧ filled.Holds c values ∧
      c.checks calls =
        (answers ++ (c.decided values first.value, after) :: later.map (c.recalled values),
          filled) ∧
      ∀ (τ : Type) (more : List (Call τ)), filled.checks more =
        (more.map (c.recalled values), filled) := by
  -- the constraint stays as it was while calls fail, so that the rest of them starts like the whole
  induction calls with
  | nil => exact .inl ⟨[], .nil, rfl⟩
  | cons call rest ih =>
    obtain ⟨result, after, hreads⟩ := exists_reads call.source call.state c
    have hfills := fills_of_reads hc hreads
    cases result with
    | error e =>
      have hchecks : c.checks (call :: rest) =
          ((.error e, after) :: (c.checks rest).1, (c.checks rest).2) := by
        rw [checks, run_check, show outcome (c.fill call.source) call.state = _ from hfills]
      have hfails := failsAt_of_reads hc hreads
      obtain ⟨answers, hanswers, hrest⟩ | ⟨failing, first, later, answers, values, last, filled,
        hcalls, hanswers, hfirst, hholds, hrest, hmore⟩ := ih
      · exact .inl ⟨(.error e, after) :: answers, .cons hfails hanswers, by rw [hchecks, hrest]⟩
      · refine .inr ⟨call :: failing, first, later, (.error e, after) :: answers, values, last,
          filled, congrArg (call :: ·) hcalls, .cons hfails hanswers, hfirst, hholds, ?_, hmore⟩
        rw [hchecks, hrest]
        rfl
    | ok values =>
      obtain ⟨filled, hholds, hfilled⟩ := hfills
      refine .inr ⟨[], call, rest, [], values, after, filled, rfl, .nil, hreads, hholds, ?_,
        fun τ more => checks_of_holds hholds⟩
      rw [checks, run_check, hfilled]
      dsimp only
      rw [checks_of_holds hholds, hholds.verdict]
      rfl

/-- A foreign key that finds no table first, then cannot read, then reads one row, and then has to
do without a source. -/
theorem checks_snapshot_foreign :
    let key : Constraint :=
      .foreign
        { name := "fk", target := ⟨some "orders", "user_id"⟩, foreign := ⟨some "users", "id"⟩ }
    let users : Table :=
      { name := "users"
        columns :=
          [{ name := "id", owner := some "users", type := "int",
             constraints := [.primary { name := "primary", target := ⟨some "users", "id"⟩ }] }] }
    let known : Memory :=
      { snapshots := [users], current := [("users", 0)], rows := [("users", [⟨[("id", .int 1)]⟩])] }
    let calls : List (Call Memory) :=
      [⟨Memory.source, {}, .int 1⟩, ⟨Memory.source, { known with failing := ["users"] }, .int 1⟩,
        ⟨Memory.source, known, .uint 1⟩, ⟨Memory.source, {}, .int 2⟩]
    key.isFilled = false ∧
      ((∃ answers, List.Forall₂ key.FailsAt calls answers ∧ key.checks calls = (answers, key)) ∨
      ∃ failing first later answers values after filled,
        calls = failing ++ first :: later ∧ List.Forall₂ key.FailsAt failing answers ∧
        Reads first.source first.state key (.ok values) after ∧ filled.Holds key values ∧
        key.checks calls =
          (answers ++ (key.decided values first.value, after) :: later.map (key.recalled values),
            filled) ∧
        ∀ (τ : Type) (more : List (Call τ)),
          filled.checks more = (more.map (key.recalled values), filled)) ∧
      (key.checks calls).1.map (·.1) =
        [.error (.table (.unknown "users")), .error (.executor "fetch failed: users"), .ok (),
          .error (.constraint (.notAKey (.int 2) ⟨some "users", "id"⟩))] := by
  intro key users known calls
  exact ⟨rfl, checks_snapshot key rfl calls, rfl⟩

end Constraint

end SchemaQuery
