import SchemaQuery.Proofs.Database.Learning
import SchemaQuery.Proofs.Database.Registry
import SchemaQuery.Proofs.Database.Submit
import SchemaQuery.Proofs.Request.Insertion

/-! Inserts that are checked first.  Each value is checked against the constraints of its column,
and the insert is sent only after all checks; by then the caches of the registry hold what the
constraints ask for.  A check that fails ends the operation before the insert. -/

namespace SchemaQuery

/-- Whether a call sends an insert to the engine. -/
def Call.IsInsert (call : Call) : Prop :=
  ∃ target values options, call = .execute (Statement.insert target values).text options

theorem Statement.text_select_ne (distinct : Bool) (projection : Projection) (target other : Target)
    (clauses : Clauses) (values : List (String × Value)) :
    (select distinct projection target clauses).text ≠ (insert other values).text := by
  have hselect : (select distinct projection target clauses).text.toList[0]? = some 's' := by
    rw [text_select]
    iterate 6 refine char_append ?_
    rfl
  have hinsert : (insert other values).text.toList[0]? = some 'i' := by
    rw [text_insert]
    iterate 7 refine char_append ?_
    rfl
  intro h
  rw [h, hinsert] at hselect
  cases hselect

namespace Database

variable {ε : Type} {engine : Engine ε} {before mid after : Database (Recorded ε)}
  {name columnName : String} {place : Nat} {column : Column} {c new : Constraint} {value : Value}

/-! ### Looking -/

/-- Whether a step has only looked: it has learned, and has sent no insert. -/
structure Looks (before after : Database (Recorded ε)) : Prop where
  learns : Learns before.tables after.tables
  calls : ∃ reads, after.engine.calls = before.engine.calls ++ reads ∧
    ∀ call ∈ reads, ¬call.IsInsert

theorem Looks.refl (database : Database (Recorded ε)) : Looks database database :=
  ⟨.refl _, [], (List.append_nil _).symm, nofun⟩

theorem Looks.trans (h : Looks before mid) (hafter : Looks mid after) : Looks before after := by
  obtain ⟨reads, hcalls, hreads⟩ := h.calls
  obtain ⟨more, hmore, hmoreReads⟩ := hafter.calls
  refine ⟨h.learns.trans hafter.learns, reads ++ more, ?_,
    List.forall_mem_append.mpr ⟨hreads, hmoreReads⟩⟩
  rw [hmore, hcalls, List.append_assoc]

theorem exists_select_of_statementOf {request : Request} {resolved : Resolved}
    {statement : Statement} (hm : resolved.method.readsRows = true)
    (h : Request.statementOf resolved request = .ok statement) :
    ∃ distinct projection target clauses, statement =
      .select distinct projection target clauses := by
  unfold Request.statementOf at h
  cases hmethod : resolved.method with
  | select | distinct | count =>
    rw [hmethod] at h
    obtain ⟨table, -, h⟩ := bind_eq_ok_iff.mp h
    obtain ⟨projection, -, h⟩ := bind_eq_ok_iff.mp h
    obtain ⟨clauses, -, h⟩ := bind_eq_ok_iff.mp h
    cases h
    exact ⟨_, projection, _, clauses, rfl⟩
  | _ =>
    rw [hmethod] at hm
    cases hm

theorem method_of_fetchRequest {catalog : Catalog} {resolved : Resolved} {owner : String}
    {columns : List String} {distinct : Bool}
    (h : (fetchRequest owner columns distinct).validate catalog = .ok resolved) :
    resolved.method.readsRows = true ∧ resolved.method.changesSchema = false := by
  obtain ⟨hr, -, -⟩ := Request.validate_eq_ok_iff.mp h
  obtain ⟨-, hmethod, -⟩ := Request.resolve_eq_ok_iff.mp hr
  rw [← Except.ok.inj ((ofText_fetchMethod distinct).symm.trans hmethod)]
  cases distinct <;> exact ⟨rfl, rfl⟩

/-- A request that keeps the registry sends its statement and nothing else. -/
theorem Sent.calls_of_kept {request : Request} {method : Method} {text : String}
    {names : List String} {ended : Except Error Output × Database (Recorded ε)}
    (h : Sent engine request method before text names ended)
    (hkeeps : method.changesSchema = false) :
    ended.2.engine.calls = before.engine.calls ++
      [.execute text (answerOptions method request)] := by
  have hnames : names = [] := by
    by_contra hne
    rw [(h.answered hne).1] at hkeeps
    cases hkeeps
  rw [h.calls, hnames]
  rfl

/-- Rows are read by a select. -/
theorem looks_fetch (engine : Engine ε) (owner : String) (columns : List String) (distinct : Bool)
    (before : Database (Recorded ε)) :
    Looks before (outcome (fetch engine.recorded owner columns distinct) before).2 := by
  have hafter : (outcome (fetch engine.recorded owner columns distinct) before).2 =
      (outcome (submit engine.recorded (fetchRequest owner columns distinct)) before).2 := by
    rw [fetch, bind_pure_comp, outcome_map]
    rfl
  rw [hafter]
  obtain ⟨hrejected, hsent⟩ := submit_sends engine (fetchRequest owner columns distinct) before
  cases hv : (fetchRequest owner columns distinct).validate (before.catalog engine.recorded) with
  | error e =>
    rw [hrejected e hv]
    exact .refl before
  | ok resolved =>
    obtain ⟨text, names, h⟩ := hsent resolved hv
    obtain ⟨hreads, hkeeps⟩ := method_of_fetchRequest hv
    obtain ⟨statement, hs, -, htext⟩ := Request.exists_text_of_validate hv
    obtain ⟨distinctRows, projection, target, clauses, rfl⟩ :=
      exists_select_of_statementOf hreads hs
    cases h.isText.symm.trans htext
    refine ⟨?_, _, h.calls_of_kept hkeeps, List.forall_mem_singleton.mpr ?_⟩
    · rw [h.unchanged hkeeps]
      exact .refl before.tables
    · rintro ⟨other, values, options, hcall⟩
      injection hcall with htexts
      exact Statement.text_select_ne distinctRows projection target other clauses values htexts

/-! ### Filling caches -/

/-- A database with a constraint put at a place of its registry. -/
def put (name columnName : String) (place : Nat) (c : Constraint) (database : Database ε) :
    Database ε :=
  { database with
    tables := changeTable name (fun table => table.setConstraint columnName place c)
      database.tables }

theorem Looks.put (h : Looks before after)
    (hnames : ∀ known ∈ before.tables, known.columnNames.Nodup)
    (hat : IsAt before.tables name columnName place column c)
    (hrule : new.withoutCache = c.withoutCache)
    (hkept : c.isFilled = true ∨ column.asks c = false → new = c) :
    Looks before (after.put name columnName place new) :=
  ⟨h.learns.setConstraint hnames hat hrule hkept, h.calls⟩

theorem looks_readsRows {read : Except Error (List Row)}
    (h : Constraint.ReadsRows (source engine.recorded) before c read after) :
    Looks before after := by
  have hfetch : ∀ {owner columns distinct},
      outcome ((source engine.recorded).fetch owner columns distinct) before = (read, after) →
        Looks before after := by
    intro owner columns distinct hfetched
    have hlooks := looks_fetch engine owner columns distinct before
    have hsource : (source engine.recorded).fetch = fetch engine.recorded := rfl
    rw [hsource] at hfetched
    rwa [hfetched] at hlooks
  cases h with
  | unowned | unknown => exact .refl before
  | index _ _ h => exact hfetch h
  | unique _ h => exact hfetch h
  | primary _ h => exact hfetch h

/-- The keyed constraint that a foreign key reads through, at its place. -/
theorem isAt_of_leadsTo {key : ForeignKey} {table : Table}
    (h : Constraint.LeadsTo (source engine.recorded) before key table column place c) :
    IsAt before.tables table.name column.name place column c := by
  obtain ⟨owner, -, hfound⟩ := h.tableFound
  have htable : findTable? before.tables owner = some table := hfound
  rw [name_of_findTable? htable]
  exact ⟨columnAt?_of_column? htable h.columnFound, h.keyedFound⟩

/-- A reading looks, whatever comes of it.  Of the constraints of the registry, it can only fill the
one that a foreign key reads through. -/
theorem looks_reads {result : Except Error (List Value)}
    (hnames : ∀ known ∈ before.tables, known.columnNames.Nodup)
    (h : Constraint.Reads (source engine.recorded) before c result after) : Looks before after := by
  cases h with
  | keyed h => exact looks_readsRows h
  | unowned | unknown | noColumn | noIndex => exact .refl before
  | known hleads hkeyed =>
    exact (Looks.refl before).put hnames (isAt_of_leadsTo hleads) rfl fun _ => rfl
  | failed hleads hkeyed h => exact looks_readsRows h
  | read hleads hkeyed h =>
    have hindexed := Constraint.isKeyed_of_readsRows h
    refine (looks_readsRows h).put hnames (isAt_of_leadsTo hleads)
      (Constraint.holds_fillFrom hindexed).same ?_
    rintro (hfilled | hasks)
    · rw [hkeyed] at hfilled
      cases hfilled
    · rw [Column.asks, hindexed] at hasks
      cases hasks

/-- What filling a cache leads to. -/
theorem looks_fill (engine : Engine ε) (hnames : ∀ known ∈ before.tables, known.columnNames.Nodup)
    (c : Constraint) : Looks before (outcome (c.fill (source engine.recorded)) before).2 ∧
      ∀ filled, (outcome (c.fill (source engine.recorded)) before).1 = .ok filled →
        filled.withoutCache = c.withoutCache ∧ filled.isFilled = true ∧
          (c.isFilled = true → filled = c) := by
  cases hc : c.isFilled with
  | true =>
    rw [Constraint.fill_of_isFilled hc, outcome_pure]
    refine ⟨.refl before, fun filled hfilled => ?_⟩
    cases hfilled
    exact ⟨rfl, hc, fun _ => rfl⟩
  | false =>
    obtain ⟨result, after, hreads⟩ := Constraint.exists_reads (source engine.recorded) before c
    have hlooks := looks_reads hnames hreads
    have hfills := Constraint.fills_of_reads hc hreads
    cases result with
    | error e =>
      rw [show outcome (c.fill (source engine.recorded)) before = (.error e, after) from hfills]
      exact ⟨hlooks, nofun⟩
    | ok values =>
      obtain ⟨filled, hholds, hout⟩ := hfills
      rw [hout]
      refine ⟨hlooks, fun other hother => ?_⟩
      cases hother
      exact ⟨hholds.same, hholds.isFilled, nofun⟩

/-! ### Checks -/

theorem outcome_checkAt {before : Database ε}
    (hat : constraintAt? before.tables name columnName place = some c) :
    outcome ((source engine).checkAt name columnName place value) before =
      match outcome (c.fill (source engine)) before with
      | (.ok filled, after) => (filled.verdict value, after.put name columnName place filled)
      | (.error e, after) => (.error e, after.put name columnName place c) := by
  have hsource : (((source engine).table? before name).bind fun t => t.columnNamed? columnName).bind
      (fun c => c.constraints[place]?) = some c := hat
  rw [RowSource.checkAt, outcome_bind_of_ok (outcome_get before)]
  dsimp only
  rw [hsource]
  dsimp only
  rw [outcome_bind, outcome_check]
  cases outcome (c.fill (source engine)) before with
  | mk result after =>
    cases result with
    | ok filled => exact outcome_lift (filled.verdict value) _
    | error e => rfl

theorem outcome_checkAt_of_none {before : Database ε}
    (hnone : constraintAt? before.tables name columnName place = none) :
    outcome ((source engine).checkAt name columnName place value) before = (.ok (), before) := by
  have hsource : (((source engine).table? before name).bind fun t => t.columnNamed? columnName).bind
      (fun c => c.constraints[place]?) = none := hnone
  rw [RowSource.checkAt, outcome_bind_of_ok (outcome_get before)]
  dsimp only
  rw [hsource]
  rfl

/-- Whether the columns of each table have different names, and the constraint at a place is one
that its column asks for. -/
structure Asked (name columnName : String) (place : Nat) (database : Database (Recorded ε)) :
    Prop where
  names : ∀ known ∈ database.tables, known.columnNames.Nodup
  asks : ∀ {column c}, IsAt database.tables name columnName place column c → column.asks c = true

/-- Whether the constraint at a place allows a value by its cache. -/
def Passed (name columnName : String) (value : Value) (place : Nat)
    (database : Database (Recorded ε)) : Prop :=
  ∀ {column c}, IsAt database.tables name columnName place column c →
  c.isFilled = true ∧ c.verdict value = .ok ()

theorem Asked.of_looks (h : Asked name columnName place before) (hlooks : Looks before after) :
    Asked name columnName place after := by
  refine ⟨nodup_of_alike h.names hlooks.learns.alike, fun {column c} hat => ?_⟩
  obtain ⟨known, old, hold, hsame, hrule⟩ := hlooks.learns.alike.exists_isAt hat
  rw [← asks_eq_of_withoutCache hsame hrule]
  exact h.asks hold

theorem Passed.of_looks (h : Passed name columnName value place before)
    (hlooks : Looks before after) : Passed name columnName value place after := by
  intro column c hat
  obtain ⟨known, old, hold, -, -⟩ := hlooks.learns.alike.exists_isAt hat
  rw [hlooks.learns.eq_of_settled hold hat (.inl (h hold).1)]
  exact h hold

/-- A check fills the cache of a constraint, if it was empty, and succeeds when this allows the
value. -/
theorem looks_checkAt (h : Asked name columnName place before) (value : Value) :
    Looks before (outcome ((source engine.recorded).checkAt name columnName place value) before).2 ∧
      ((outcome ((source engine.recorded).checkAt name columnName place value) before).1 = .ok () →
        Passed name columnName value place
          (outcome ((source engine.recorded).checkAt name columnName place value) before).2) := by
  cases hfound : constraintAt? before.tables name columnName place with
  | none =>
    rw [outcome_checkAt_of_none hfound]
    refine ⟨.refl before, fun _ column c hat => ?_⟩
    cases hfound.symm.trans hat.constraintAt?
  | some c =>
    obtain ⟨column, hat⟩ := exists_isAt hfound
    obtain ⟨hlooks, hfilled⟩ := looks_fill engine h.names c
    rw [outcome_checkAt hfound]
    cases hfill : outcome (c.fill (source engine.recorded)) before with
    | mk result mid =>
      rw [hfill] at hlooks hfilled
      cases result with
      | error e => exact ⟨hlooks.put h.names hat rfl fun _ => rfl, nofun⟩
      | ok filled =>
        obtain ⟨hrule, hcache, hsame⟩ := hfilled filled rfl
        have hkept : c.isFilled = true ∨ column.asks c = false → filled = c := by
          rintro (hc | hasks)
          · exact hsame hc
          · rw [h.asks hat] at hasks
            cases hasks
        refine ⟨hlooks.put h.names hat hrule hkept, fun hverdict other found hnow => ?_⟩
        rw [hlooks.learns.eq_of_setConstraint hat hnow]
        exact ⟨hcache, hverdict⟩

theorem settles_checkAt (engine : Engine ε) (name columnName : String) (value : Value) :
    Settles Looks (Asked name columnName) (Passed name columnName value)
      (fun place => (source engine.recorded).checkAt name columnName place value) where
  refl := .refl
  trans := .trans
  keepsPre hlooks h := h.of_looks hlooks
  keepsPost hlooks _ h := h.of_looks hlooks
  step _ _ h := looks_checkAt h value

/-- A check that a filled cache decides for the value changes nothing. -/
theorem outcome_checkAt_of_passed (hnames : ∀ known ∈ before.tables, known.columnNames.Nodup)
    (h : Passed name columnName value place before) :
    outcome ((source engine.recorded).checkAt name columnName place value) before =
      (.ok (), before) := by
  cases hfound : constraintAt? before.tables name columnName place with
  | none => exact outcome_checkAt_of_none hfound
  | some c =>
    obtain ⟨column, hat⟩ := exists_isAt hfound
    obtain ⟨hfilled, hverdict⟩ := h hat
    rw [outcome_checkAt hfound, Constraint.fill_of_isFilled hfilled, outcome_pure]
    dsimp only
    rw [hverdict, put, changeTable_setConstraint_self hnames hat]

/-! ### The checks of a value -/

/-- The places of the constraints that a column asks for. -/
def askedPlaces (column : Column) : List Nat :=
  (column.constraints.zipIdx.filter fun (c, _) => column.asks c).map (·.2)

theorem mem_askedPlaces : place ∈ askedPlaces column ↔
    ∃ c, column.constraints[place]? = some c ∧ column.asks c = true := by
  simp [askedPlaces, List.mem_zipIdx_iff_getElem?]

theorem outcome_checkValue {before : Database ε} {table : Table} {label : String}
    (hfound : findTable? before.tables name = some table)
    (hcolumn : table.column? label = some column) :
    outcome (checkValue engine name label value) before =
      outcome ((askedPlaces column).forM fun place =>
        (source engine).checkAt name column.name place value) before := by
  rw [checkValue, outcome_bind_of_ok (outcome_requireTable_of_some hfound), hcolumn,
    name_of_findTable? hfound]
  rfl

/-- A check of a value has found its column, once it succeeds, and the caches of the column then
hold what its constraints ask for. -/
theorem looks_checkValue (hnames : ∀ known ∈ before.tables, known.columnNames.Nodup)
    (label : String) (value : Value) :
    Looks before (outcome (checkValue engine.recorded name label value) before).2 ∧
      ((outcome (checkValue engine.recorded name label value) before).1 = .ok () →
        Permits (outcome (checkValue engine.recorded name label value) before).2.tables
          name label value) := by
  cases hfound : findTable? before.tables name with
  | none =>
    rw [checkValue, outcome_bind_of_error (outcome_requireTable_of_none hfound)]
    refine ⟨.refl before, fun hok => ?_⟩
    cases hok
  | some table =>
    cases hcolumn : table.column? label with
    | none =>
      rw [checkValue, outcome_bind_of_ok (outcome_requireTable_of_some hfound), hcolumn]
      refine ⟨.refl before, fun hok => ?_⟩
      cases hok
    | some column =>
      rw [outcome_checkValue hfound hcolumn]
      have hown := columnAt?_of_column? hfound hcolumn
      have hasked : ∀ place ∈ askedPlaces column, Asked name column.name place before := by
        intro place hplace
        obtain ⟨c, hc, hasks⟩ := mem_askedPlaces.mp hplace
        refine ⟨hnames, fun {other found} hat => ?_⟩
        obtain ⟨rfl, rfl⟩ := (IsAt.mk hown hc).unique hat
        exact hasks
      obtain ⟨hlooks, hpassed⟩ := (settles_checkAt engine name column.name value).forM hasked
      refine ⟨hlooks, fun hok => ?_⟩
      refine permits_of_alike hlooks.learns.alike hfound hcolumn
        fun {place old found c} hold hasks hnow => ?_
      exact hpassed hok place (mem_askedPlaces.mpr ⟨old, hold.constraintFound, hasks⟩) hnow

/-- Checks that are decided by filled caches change nothing. -/
theorem outcome_checkValue_of_permits {label : String}
    (hnames : ∀ known ∈ before.tables, known.columnNames.Nodup)
    (h : Permits before.tables name label value) :
    outcome (checkValue engine.recorded name label value) before = (.ok (), before) := by
  obtain ⟨table, column, hfound, hcolumn, hallows⟩ := h
  rw [outcome_checkValue hfound hcolumn]
  refine outcome_forM_of_ok fun place hplace => outcome_checkAt_of_passed hnames
    fun {other found} hat => ?_
  obtain ⟨c, hc, hasks⟩ := mem_askedPlaces.mp hplace
  obtain ⟨rfl, rfl⟩ := (IsAt.mk (columnAt?_of_column? hfound hcolumn) hc).unique hat
  exact Column.allows_iff.mp hallows _ (List.mem_of_getElem? hc) hasks

/-! ### Inserts -/

variable {table : String} {pairs : List (ColumnRef × Value)}

/-- The checks before an insert. -/
def checkValues (engine : Engine ε) (table : String) (pairs : List (ColumnRef × Value)) :
    Action (Database ε) Unit :=
  pairs.forM fun pair => checkValue engine table pair.1.label pair.2

theorem insertChecked_eq (engine : Engine ε) : insertChecked engine table (.values pairs) =
    checkValues engine table pairs >>= fun _ => insert engine table (.values pairs) := rfl

theorem looks_checkValues (engine : Engine ε) (table : String) (pairs : List (ColumnRef × Value))
    (hnames : ∀ known ∈ before.tables, known.columnNames.Nodup) :
    Looks before (outcome (checkValues engine.recorded table pairs) before).2 ∧
      ((outcome (checkValues engine.recorded table pairs) before).1 = .ok () → ∀ pair ∈ pairs,
        Permits (outcome (checkValues engine.recorded table pairs) before).2.tables table
          pair.1.label pair.2) := by
  have hsettles : Settles Looks
      (fun _ database => ∀ known ∈ database.tables, known.columnNames.Nodup)
      (fun pair database => Permits database.tables table pair.1.label pair.2)
      (fun pair : ColumnRef × Value => checkValue engine.recorded table pair.1.label pair.2) :=
    { refl := .refl
      trans := .trans
      keepsPre := fun hlooks h => nodup_of_alike h hlooks.learns.alike
      keepsPost := fun hlooks _ h => h.of_learns hlooks.learns
      step := fun pair _ h => looks_checkValue h pair.1.label pair.2 }
  exact hsettles.forM fun _ _ => hnames

/-- An insert keeps the registry.  It sends one call, if it sends any, and its references are then
known to stand for columns. -/
theorem sends_insert (engine : Engine ε) (table : String) (pairs : List (ColumnRef × Value))
    (before : Database (Recorded ε)) :
    (outcome (insert engine.recorded table (.values pairs)) before).2.tables = before.tables ∧
      ((outcome (insert engine.recorded table (.values pairs)) before).2.engine.calls =
        before.engine.calls ∨
        ∃ call, (outcome (insert engine.recorded table (.values pairs)) before).2.engine.calls =
            before.engine.calls ++ [call] ∧
          ∃ known columns, findTable? before.tables table = some known ∧
            Request.StandFor known pairs columns) := by
  let request : Request := { method := "insert", table := .byName table, fields := .values pairs }
  have hafter : (outcome (insert engine.recorded table (.values pairs)) before).2 =
      (outcome (submit engine.recorded request) before).2 :=
    congrArg Prod.snd (outcome_map _ (submit engine.recorded request) before)
  rw [hafter]
  obtain ⟨hrejected, hsent⟩ := submit_sends engine request before
  cases hv : request.validate (before.catalog engine.recorded) with
  | error e =>
    rw [hrejected e hv]
    exact ⟨rfl, .inl rfl⟩
  | ok resolved =>
    obtain ⟨text, names, h⟩ := hsent resolved hv
    have hm : resolved.method = .insert := by
      have hknown : Method.ofText "insert" = .ok .insert := by decide +kernel
      obtain ⟨-, hmethod, -⟩ := Request.resolve_eq_ok_iff.mp (Request.validate_eq_ok_iff.mp hv).1
      exact Except.ok.inj (hmethod.symm.trans hknown)
    have hkeeps : resolved.method.changesSchema = false := by rw [hm]; rfl
    obtain ⟨known, given, columns, hinserts⟩ := Request.inserts_of_validate hv hm
    cases hinserts.given
    exact ⟨h.unchanged hkeeps, .inr ⟨_, h.calls_of_kept hkeeps, known, columns, hinserts.known,
      hinserts.standFor⟩⟩

/-- The column that a reference stands for is the one that its name leads to. -/
theorem column?_of_resolve {known : Table} {reference : ColumnRef}
    (hnames : known.columnNames.Nodup) (hjoined : known.joined = false)
    (h : known.resolve reference = .ok column) : known.column? reference.label = some column := by
  have hfound := Table.resolve_eq_ok_iff.mp h
  cases reference with
  | byName label => exact hfound
  | byValue wanted =>
    simp only [Table.resolve?] at hfound
    split at hfound
    · next own hown =>
      cases hfound
      have hname : column.name = wanted.name := by
        have hsame := List.find?_some hown
        simp only [Bool.and_eq_true, beq_iff_eq] at hsame
        exact hsame.1.2
      have hnamed := Table.columnNamed?_of_mem hnames (List.mem_of_find?_eq_some hown)
      rw [ColumnRef.label, ← hname, Table.column?, hnamed]
    · rw [hjoined] at hfound
      cases hfound

/-- What an insert with checks has to do with them.  It has learned from the engine, and changed
nothing else in the registry.  At most one insert is sent, as the last call, and only when the
caches allow each value: those of the constraints that its column asks for, which is the column that
the insert gives the value to.  The first check that fails gives its error, and ends the operation
without an insert.  Where the caches allow all values before, there is nothing to check, whatever
else is noted on the columns. -/
structure Guards (engine : Engine ε) (table : String) (pairs : List (ColumnRef × Value))
    (before : Database (Recorded ε)) (calls : List Call)
    (ended : Except Error Unit × Database (Recorded ε)) : Prop where
  sends : ended.2.engine.calls = before.engine.calls ++ calls
  learns : Learns before.tables ended.2.tables
  once : ∀ call ∈ calls, call.IsInsert →
    ∃ reads, calls = reads ++ [call] ∧ ∀ other ∈ reads, ¬other.IsInsert
  permitted : (∃ call ∈ calls, call.IsInsert) → ∀ pair ∈ pairs, ∃ known column,
    findTable? ended.2.tables table = some known ∧ known.column? pair.1.label = some column ∧
      (known.joined = false → known.resolve pair.1 = .ok column) ∧ column.Allows pair.2
  failed : ∀ done pair rest mid last e, pairs = done ++ pair :: rest →
    outcome (checkValues engine.recorded table done) before = (.ok (), mid) →
    outcome (checkValue engine.recorded table pair.1.label pair.2) mid = (.error e, last) →
      ended = (.error e, last) ∧ ∀ call ∈ calls, ¬call.IsInsert
  passed : (∀ pair ∈ pairs, Permits before.tables table pair.1.label pair.2) →
    ended = outcome (insert engine.recorded table (.values pairs)) before

/-- The first check that fails is the last one. -/
theorem checkValues_of_failed {done rest : List (ColumnRef × Value)} {pair : ColumnRef × Value}
    {e : Error} (hpairs : pairs = done ++ pair :: rest)
    (hdone : outcome (checkValues engine.recorded table done) before = (.ok (), mid))
    (hfails : outcome (checkValue engine.recorded table pair.1.label pair.2) mid =
      (.error e, after)) :
    outcome (checkValues engine.recorded table pairs) before = (.error e, after) := by
  have happend : checkValues engine.recorded table (done ++ pair :: rest) =
      checkValues engine.recorded table done >>= fun _ =>
        checkValues engine.recorded table (pair :: rest) :=
    List.forM_append
  rw [hpairs, happend, outcome_bind_of_ok hdone]
  exact outcome_bind_of_error hfails

theorem checkValues_of_permits (hnames : ∀ known ∈ before.tables, known.columnNames.Nodup)
    (h : ∀ pair ∈ pairs, Permits before.tables table pair.1.label pair.2) :
    outcome (checkValues engine.recorded table pairs) before = (.ok (), before) :=
  outcome_forM_of_ok fun pair hp => outcome_checkValue_of_permits hnames (h pair hp)

/-- The columns that an insert gives values to are those that have been checked. -/
theorem exists_allowing_column {known : Table} {columns : List Column}
    (hnames : known.columnNames.Nodup) (hfound : findTable? before.tables table = some known)
    (hcolumns : Request.StandFor known pairs columns)
    (hpermits : ∀ pair ∈ pairs, Permits before.tables table pair.1.label pair.2) :
    ∀ pair ∈ pairs, ∃ known column, findTable? before.tables table = some known ∧
      known.column? pair.1.label = some column ∧
        (known.joined = false → known.resolve pair.1 = .ok column) ∧ column.Allows pair.2 := by
  intro pair hp
  obtain ⟨_, column, hagain, hcolumn, hallows⟩ := hpermits pair hp
  obtain rfl := Option.some.inj (hfound.symm.trans hagain)
  refine ⟨known, column, hfound, hcolumn, fun hjoined => ?_, hallows⟩
  obtain ⟨given, hgiven⟩ := exists_mapM_eq_ok_iff.mp ⟨columns, mapM_eq_ok_iff.mpr hcolumns⟩ pair hp
  rw [hgiven, Option.some.inj ((column?_of_resolve hnames hjoined hgiven).symm.trans hcolumn)]

/-- An operation that sends no insert has nothing to answer for but its errors. -/
theorem Guards.of_reads {calls : List Call} {ended : Except Error Unit × Database (Recorded ε)}
    (hsends : ended.2.engine.calls = before.engine.calls ++ calls)
    (hlearns : Learns before.tables ended.2.tables)
    (hreads : ∀ call ∈ calls, ¬call.IsInsert)
    (hfailed : ∀ done pair rest mid last e, pairs = done ++ pair :: rest →
      outcome (checkValues engine.recorded table done) before = (.ok (), mid) →
      outcome (checkValue engine.recorded table pair.1.label pair.2) mid = (.error e, last) →
        ended = (.error e, last))
    (hpassed : (∀ pair ∈ pairs, Permits before.tables table pair.1.label pair.2) →
      ended = outcome (insert engine.recorded table (.values pairs)) before) :
    Guards engine table pairs before calls ended where
  sends := hsends
  learns := hlearns
  once call hcall hinsert := absurd hinsert (hreads call hcall)
  permitted := fun ⟨call, hcall, hinsert⟩ => absurd hinsert (hreads call hcall)
  failed done pair rest mid last e hpairs hdone hfails :=
    ⟨hfailed done pair rest mid last e hpairs hdone hfails, hreads⟩
  passed := hpassed

/-- Checks that fail are the end of it. -/
theorem guards_of_error {e : Error} (hnames : ∀ known ∈ before.tables, known.columnNames.Nodup)
    (hchecks : outcome (checkValues engine.recorded table pairs) before = (.error e, after)) :
    ∃ calls, Guards engine table pairs before calls (.error e, after) := by
  obtain ⟨hlooks, -⟩ := looks_checkValues engine table pairs hnames
  rw [hchecks] at hlooks
  obtain ⟨reads, hcalls, hreads⟩ := hlooks.calls
  refine ⟨reads, .of_reads hcalls hlooks.learns hreads ?_ fun hall => ?_⟩
  · intro done pair rest middle last e' hpairs hdone hfails
    exact hchecks.symm.trans (checkValues_of_failed hpairs hdone hfails)
  · cases hchecks.symm.trans (checkValues_of_permits hnames hall)

/-- After checks that succeed, the insert is sent where the caches allow its values. -/
theorem guards_of_ok (hnames : ∀ known ∈ before.tables, known.columnNames.Nodup)
    (hchecks : outcome (checkValues engine.recorded table pairs) before = (.ok (), mid)) :
    ∃ calls, Guards engine table pairs before calls
      (outcome (insert engine.recorded table (.values pairs)) mid) := by
  obtain ⟨hlooks, hpermits⟩ := looks_checkValues engine table pairs hnames
  rw [hchecks] at hlooks hpermits
  obtain ⟨reads, hcalls, hreads⟩ := hlooks.calls
  obtain ⟨htables, hsent⟩ := sends_insert engine table pairs mid
  have hlearns : Learns before.tables
      (outcome (insert engine.recorded table (.values pairs)) mid).2.tables := by
    rw [htables]
    exact hlooks.learns
  have hfailed : ∀ done pair rest middle last e, pairs = done ++ pair :: rest →
      outcome (checkValues engine.recorded table done) before = (.ok (), middle) →
      outcome (checkValue engine.recorded table pair.1.label pair.2) middle ≠ (.error e, last) := by
    intro done pair rest middle last e hpairs hdone hfails
    cases hchecks.symm.trans (checkValues_of_failed hpairs hdone hfails)
  have hpassed : (∀ pair ∈ pairs, Permits before.tables table pair.1.label pair.2) →
      mid = before := by
    intro hall
    cases hchecks.symm.trans (checkValues_of_permits hnames hall)
    rfl
  obtain hquiet | ⟨call, hcall, known, columns, hfound, hcolumns⟩ := hsent
  · refine ⟨reads, .of_reads (hquiet.trans hcalls) hlearns hreads ?_
      fun hall => by rw [hpassed hall]⟩
    intro done pair rest middle last e hpairs hdone hfails
    exact absurd hfails (hfailed done pair rest middle last e hpairs hdone)
  · refine ⟨reads ++ [call], ?_, hlearns, ?_, fun _ => ?_, ?_, fun hall => by rw [hpassed hall]⟩
    · rw [hcall, hcalls, List.append_assoc]
    · intro other hother hinsert
      obtain hother | hother := List.mem_append.mp hother
      · exact absurd hinsert (hreads other hother)
      · obtain rfl := List.mem_singleton.mp hother
        exact ⟨reads, rfl, hreads⟩
    · have hdifferent := nodup_of_alike hnames hlooks.learns.alike known (mem_of_findTable? hfound)
      rw [htables]
      exact exists_allowing_column hdifferent hfound hcolumns (hpermits rfl)
    · intro done pair rest middle last e hpairs hdone hfails
      exact absurd hfails (hfailed done pair rest middle last e hpairs hdone)

/-- An insert with checks sends no row that a constraint does not allow, as far as the caches tell.
Tables are never made with two columns of one name, which is all that is asked of the registry. -/
theorem insertChecked_guards (engine : Engine ε) (table : String) (pairs : List (ColumnRef × Value))
    (before : Database (Recorded ε)) (hnames : ∀ known ∈ before.tables, known.columnNames.Nodup) :
    ∃ calls, Guards engine table pairs before calls
      (outcome (insertChecked engine.recorded table (.values pairs)) before) := by
  rw [insertChecked_eq, outcome_bind]
  cases hchecks : outcome (checkValues engine.recorded table pairs) before with
  | mk result after =>
    cases result with
    | error e => exact guards_of_error hnames hchecks
    | ok _ => exact guards_of_ok hnames hchecks

/-- The shop with a user, connected to an engine that is recorded. -/
def recordedShop : Database (Recorded Script) :=
  let script :=
    shopScript.answer "select distinct id from \x60users\x60;" (.rows (some [⟨[("id", .int 1)]⟩]))
  (outcome (connect Script.engine.recorded) { name := "db", engine := ⟨script, []⟩ }).2

/-- A new user of the shop is inserted after a check.  One with a number that is taken is not
inserted: the reading of the numbers is then the only call. -/
theorem insertChecked_guards_shop :
    let values (id : Int64) : List (ColumnRef × Value) := [(.byName "id", .int id)]
    let ended (id : Int64) :=
      outcome (insertChecked Script.engine.recorded "users" (.values (values id))) recordedShop
    (∀ known ∈ recordedShop.tables, known.columnNames.Nodup) ∧
      (∀ id, ∃ calls, Guards Script.engine "users" (values id) recordedShop calls (ended id)) ∧
      (ended 7).1 = .ok () ∧
      (ended 7).2.engine.calls = recordedShop.engine.calls ++
        [.execute "select distinct id from \x60users\x60;" { expectsRows := true },
          .execute "insert into \x60users\x60 (id) values (7);" { expectsRows := false }] ∧
      (ended 1).1 = .error (.constraint (.notUnique (.int 1) ⟨some "users", "id"⟩)) ∧
      (ended 1).2.engine.calls = recordedShop.engine.calls ++
        [.execute "select distinct id from \x60users\x60;" { expectsRows := true }] := by
  intro values ended
  have hnames : ∀ known ∈ recordedShop.tables, known.columnNames.Nodup := by decide +kernel
  refine ⟨hnames, fun id => ?_, ?_, ?_, ?_, ?_⟩
  · exact insertChecked_guards Script.engine "users" (values id) recordedShop hnames
  all_goals decide +kernel

end Database

end SchemaQuery
