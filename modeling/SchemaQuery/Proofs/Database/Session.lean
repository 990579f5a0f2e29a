import SchemaQuery.Proofs.Database.Check

/-! Sessions: a connection, and submissions after it.  Each change of the registry carries the
foreign keys over; the notes of a key on its two columns agree as long as no change takes one end of
a key away and no foreign key is dropped from the table that it leads to. -/

namespace SchemaQuery

open Database

variable {before after : List Table} {drops drops' : ColumnKey → ForeignKey → Prop}
  {adds : ForeignKey → Prop} {key : ForeignKey} {request : Request}

/-- Whether a request drops a foreign key. -/
def Request.dropsKey (request : Request) (key : ForeignKey) : Prop :=
  Method.ofText request.method = .ok .dropConstraint ∧
    ∃ c, request.fields = .constraint c ∧ (Constraint.foreign key).same c = true

/-- Whether a request leaves both ends of each foreign key or neither, and drops foreign keys from
the table that they lead away from. -/
def KeepsEnds (request : Request) (before after : List Table) : Prop :=
  ∀ key, Holds before key.target key →
    (request.dropsKey key → key.target.table = some request.table.name) ∧
      (¬request.dropsKey key →
        ((columnAt? after key.target).isSome ↔ (columnAt? after key.foreign).isSome))

/-- What is dropped matters only at the places that hold it. -/
theorem Carries.congr (h : Carries before after drops adds)
    (hdrops : ∀ place key, Holds before place key → (drops place key ↔ drops' place key)) :
    Carries before after drops' adds := by
  intro place key
  rw [h]
  by_cases hheld : Holds before place key
  · rw [hdrops place key hheld]
  · simp [hheld]

/-- A foreign key is the same as another one of its name between the same columns, and as nothing
else. -/
theorem foreign_of_drops {dropped : Constraint} (h : Drops (some dropped) key) :
    ∃ other : ForeignKey, dropped = .foreign other ∧ key.target = other.target ∧
      key.foreign = other.foreign := by
  obtain ⟨c, hc, hsame⟩ := h
  cases hc
  cases dropped with
  | foreign other =>
    have heq := eq_of_beq hsame
    simp only [Constraint.withoutCache, Constraint.foreign.injEq, ForeignKey.mk.injEq] at heq
    exact ⟨other, rfl, heq.2.1, heq.2.2.1⟩
  | _ => cases eq_of_beq hsame

namespace Database

variable {ε : Type} {engine : Engine ε} {database last : Database ε} {name : String}

/-! ### What a change carries over -/

theorem carries_remove (h : IsRegistry database.tables)
    (hrun : outcome (RegistryChange.remove.apply engine name) database = (.ok (), last)) :
    Carries database.tables last.tables (fun _ _ => False) fun _ => False := by
  cases hrun
  exact carries_eraseP h name

theorem exists_described_of_loadTable {temporary : Bool}
    (hrun : outcome (loadTable engine name temporary) database = (.ok (), last)) :
    ∃ table : Table, table.IsDescribed name ∧
      last.tables = putTable database.tables { table with temporary } := by
  obtain ⟨result, state, hdescribe, hdescribed⟩ := describeTable_cases engine name database
  rw [outcome_loadTable, hdescribe] at hrun
  cases result with
  | error e => cases hrun
  | ok table =>
    cases hrun
    exact ⟨table, hdescribed table rfl, rfl⟩

/-- A refresh takes the answer to a description into the registry. -/
theorem exists_answer_of_refreshTable {dropped : Option Constraint}
    (hrun : outcome (refreshTable engine name dropped) database = (.ok (), last)) :
    ∃ answer table,
      (outcome (engine.execute (describeText name) { expectsRows := true }) database.engine).1 =
        .ok answer ∧
      readDescription name answer = .ok table ∧
      last.tables = putTable database.tables (renewed (database.table? name) dropped table) := by
  rw [outcome_refreshTable, outcome_describeTable, outcome_run] at hrun
  cases hopen : database.isOpen engine with
  | false =>
    rw [hopen] at hrun
    cases hrun
  | true =>
    rw [hopen, if_pos rfl] at hrun
    cases hanswer : (outcome (engine.execute (describeText name) { expectsRows := true })
        database.engine).1 with
    | error e =>
      rw [hanswer] at hrun
      cases hrun
    | ok answer =>
      rw [hanswer] at hrun
      dsimp only at hrun
      cases hread : readDescription name answer with
      | error e =>
        rw [hread] at hrun
        cases hrun
      | ok table =>
        rw [hread] at hrun
        cases hrun
        exact ⟨answer, table, rfl, hread, rfl⟩

theorem exists_described_of_refreshTable {dropped : Option Constraint}
    (hrun : outcome (refreshTable engine name dropped) database = (.ok (), last)) :
    ∃ table : Table, table.IsDescribed name ∧
      last.tables = putTable database.tables (renewed (database.table? name) dropped table) := by
  obtain ⟨answer, table, -, hread, htables⟩ := exists_answer_of_refreshTable hrun
  exact ⟨table, isDescribed_of_readDescription hread, htables⟩

theorem carries_create {temporary : Bool} (hfree : database.table? name = none)
    (hrun : outcome ((RegistryChange.create temporary).apply engine name) database =
      (.ok (), last)) :
    Carries database.tables last.tables (fun _ _ => False) fun _ => False := by
  obtain ⟨table, hdescribed, htables⟩ := exists_described_of_loadTable hrun
  rw [htables]
  exact carries_described hdescribed hfree temporary

theorem carries_rename {new : String} (h : IsRegistry database.tables)
    (hfree : database.table? new = none)
    (hrun : outcome ((RegistryChange.rename new).apply engine name) database = (.ok (), last)) :
    Carries database.tables last.tables (fun _ _ => False) fun _ => False := by
  obtain ⟨former, middle, hremove, hload⟩ := exists_outcome_of_bind hrun
  cases hremove
  obtain ⟨table, hdescribed, htables⟩ := exists_described_of_loadTable hload
  change last.tables =
    putTable (database.tables.eraseP fun table => table.name == name) _ at htables
  have herased :
      findTable? (database.tables.eraseP fun table => table.name == name) new = none := by
    by_cases hnew : name = new
    · rw [← hnew]
      exact findTable?_eraseP_self h.names
    · rw [findTable?_eraseP_of_ne hnew]
      exact hfree
  have hstay : ∀ place key, Holds database.tables place key → (columnAt? last.tables place).isSome →
      (columnAt? (database.tables.eraseP fun table => table.name == name) place).isSome := by
    intro place key hheld hlast
    have hplace : place.table ≠ some new :=
      fun hplace => not_holds_of_findTable?_none hfree hplace hheld
    rw [htables, columnAt?_putTable] at hlast
    change (if place.table = some table.name then _ else _ : Option Column).isSome = true at hlast
    rwa [hdescribed.name, if_neg hplace] at hlast
  rw [htables] at hstay ⊢
  exact ((carries_eraseP h name).trans (carries_described hdescribed herased _) hstay).congr
    fun _ _ _ => or_self_iff

/-- A refresh concerns the places of its own table. -/
theorem carries_refreshTable {dropped : Option Constraint}
    (hrun : outcome (refreshTable engine name dropped) database = (.ok (), last)) :
    Carries database.tables last.tables
        (fun place key => place.table = some name ∧ Drops dropped key) (fun _ => False) ∧
      ∀ place, place.table ≠ some name →
        columnAt? last.tables place = columnAt? database.tables place := by
  obtain ⟨result, state, hdescribe, hdescribed⟩ := describeTable_cases engine name database
  rw [outcome_refreshTable, hdescribe] at hrun
  cases result with
  | error e => cases hrun
  | ok table =>
    cases hrun
    refine ⟨carries_renewed (hdescribed table rfl) dropped, fun place hplace => ?_⟩
    have hname : (renewed (database.table? name) dropped table).name = name := by
      rw [name_renewed, (hdescribed table rfl).name]
    change columnAt? (putTable database.tables _) place = _
    rw [columnAt?_putTable, hname, if_neg hplace]

/-- Two refreshes, one after the other. -/
theorem carries_refreshTable_twice {middle : Database ε} {other : String}
    {dropped : Option Constraint} (hne : name ≠ other)
    (hrun : outcome (refreshTable engine name dropped) database = (.ok (), middle))
    (hrun' : outcome (refreshTable engine other dropped) middle = (.ok (), last)) :
    Carries database.tables last.tables
      (fun place key => (place.table = some name ∨ place.table = some other) ∧ Drops dropped key)
      fun _ => False := by
  obtain ⟨hfirst, hoff⟩ := carries_refreshTable hrun
  obtain ⟨hsecond, hoff'⟩ := carries_refreshTable hrun'
  have hstay : ∀ place key, Holds database.tables place key →
      (columnAt? last.tables place).isSome → (columnAt? middle.tables place).isSome := by
    intro place key hheld hlast
    by_cases hplace : place.table = some other
    · have hother : place.table ≠ some name := fun h => hne (Option.some.inj (h.symm.trans hplace))
      rw [hoff place hother]
      exact hheld.isSome
    · rwa [← hoff' place hplace]
  exact (hfirst.trans hsecond hstay).congr fun place key _ => or_and_right.symm

theorem found_of_requireTable {table : Table}
    (hrun : outcome (requireTable name) database = (.ok table, last)) :
    last = database ∧ database.table? name = some table := by
  cases hfound : database.table? name with
  | some found =>
    rw [outcome_requireTable_of_some hfound] at hrun
    cases hrun
    exact ⟨rfl, rfl⟩
  | none =>
    rw [outcome_requireTable_of_none hfound] at hrun
    cases hrun

theorem carries_linkForeignKey {table column foreignTable foreignColumn : String}
    {asked : Option String} (h : IsRegistry database.tables)
    (hrun : outcome (linkForeignKey table column foreignTable foreignColumn asked) database =
      (.ok (), last)) :
    ∃ added, Carries database.tables last.tables (fun _ _ => False) (fun key => key = added) ∧
      ∀ place, (columnAt? last.tables place).isSome = (columnAt? database.tables place).isSome := by
  obtain ⟨e, hfails⟩ | ⟨target, foreign, ht, hf, referencing, referenced, hc, hr, linked, hl,
    hlinked⟩ := outcome_linkForeignKey database table column foreignTable foreignColumn asked
  · cases hfails.symm.trans hrun
  · cases hlinked.symm.trans hrun
    rw [← name_of_findTable? ht] at ht
    rw [← name_of_findTable? hf] at hf
    exact ⟨linked.1, carries_link h ht hf hc hr hl⟩

theorem carries_linkChange {column foreign : ColumnRef} {asked : Option String} {known : Table}
    {target : Column} {foreignTable foreignColumn : String} (h : IsRegistry database.tables)
    (hknown : database.table? name = some known) (hresolve : known.resolve column = .ok target)
    (hsplit : foreign.splitQualified = .ok (foreignTable, foreignColumn))
    (hne : foreignTable ≠ name)
    (hrun : outcome ((RegistryChange.link column foreign asked).apply engine name) database =
      (.ok (), last)) :
    ∃ added, Carries database.tables last.tables (fun _ _ => False) fun key => key = added := by
  rw [RegistryChange.apply, outcome_applyForeignKey hknown hresolve hsplit] at hrun
  obtain ⟨_, first, hfirst, hrun⟩ := exists_outcome_of_bind hrun
  obtain ⟨_, second, hsecond, hlink⟩ := exists_outcome_of_bind hrun
  have hregistry : IsRegistry second.tables :=
    (keepsRegistry_refreshTable engine _ none).state hsecond
      ((keepsRegistry_refreshTable engine name none).state hfirst h)
  have hcarried : Carries database.tables second.tables (fun _ _ => False) fun _ => False :=
    (carries_refreshTable_twice hne.symm hfirst hsecond).congr fun place key _ => by simp [Drops]
  obtain ⟨added, hadded, hplaces⟩ := carries_linkForeignKey hregistry hlink
  refine ⟨added, (hcarried.trans hadded fun place key _ hlast => ?_).congr fun _ _ _ => or_self_iff⟩
  rwa [← hplaces place]

theorem carries_refresh
    (hrun : outcome (RegistryChange.refresh.apply engine name) database = (.ok (), last)) :
    Carries database.tables last.tables (fun _ _ => False) fun _ => False :=
  (carries_refreshTable hrun).1.congr fun place key _ => by simp [Drops]

/-- The other table of a dropped foreign key is refreshed too, if it is another table of the
registry. -/
theorem applyDrop_cases {dropped : Constraint}
    (hrun : outcome (applyDrop engine name dropped) database = (.ok (), last)) :
    ∃ middle, outcome (refreshTable engine name (some dropped)) database = (.ok (), middle) ∧
      ((last = middle ∧ ∀ other foreignTable, dropped = .foreign other →
          other.foreign.table = some foreignTable →
          foreignTable = name ∨ middle.table? foreignTable = none) ∨
        ∃ other foreignTable, dropped = .foreign other ∧ other.foreign.table = some foreignTable ∧
          foreignTable ≠ name ∧ (middle.table? foreignTable).isSome ∧
          outcome (refreshTable engine foreignTable (some dropped)) middle = (.ok (), last)) := by
  obtain ⟨_, middle, hfirst, hrun⟩ := exists_outcome_of_bind hrun
  refine ⟨middle, hfirst, ?_⟩
  cases dropped with
  | foreign other =>
    dsimp only at hrun
    split at hrun
    · next foreignTable hforeign =>
      rw [outcome_bind_of_ok (outcome_get middle)] at hrun
      split at hrun
      · next hother => exact .inr ⟨other, foreignTable, rfl, hforeign, hother.1, hother.2, hrun⟩
      · next hother =>
        cases hrun
        refine .inl ⟨rfl, fun other' foreignTable' hsame hforeign' => ?_⟩
        cases hsame
        cases hforeign.symm.trans hforeign'
        by_cases hname : foreignTable = name
        · exact .inl hname
        · exact .inr (Option.not_isSome_iff_eq_none.mp fun hsome => hother ⟨hname, hsome⟩)
    · next hforeign =>
      cases hrun
      refine .inl ⟨rfl, fun other' foreignTable hsame hforeign' => ?_⟩
      cases hsame
      cases hforeign.symm.trans hforeign'
  | _ =>
    cases hrun
    exact .inl ⟨rfl, nofun⟩

/-- A dropped constraint goes from its table, and a foreign key also from the table that it leads
to. -/
theorem carries_unlink {dropped : Constraint}
    (hrun : outcome ((RegistryChange.unlink dropped).apply engine name) database = (.ok (), last)) :
    Carries database.tables last.tables
        (fun place key => (place.table = some name ∨ place.table = key.foreign.table) ∧
          Drops (some dropped) key) (fun _ => False) ∧
      ∀ place key, Drops (some dropped) key → place.table ≠ some name →
        place.table ≠ key.foreign.table →
        columnAt? last.tables place = columnAt? database.tables place := by
  obtain ⟨middle, hfirst, ⟨rfl, hother⟩ | ⟨other, foreignTable, rfl, hforeign, hne, -, hsecond⟩⟩ :=
    applyDrop_cases hrun
  · refine ⟨?_, fun place key _ hplace _ => (carries_refreshTable hfirst).2 place hplace⟩
    refine (carries_refreshTable hfirst).1.congr fun place key hheld => ?_
    refine ⟨fun hd => ⟨.inl hd.1, hd.2⟩, fun ⟨hplace, hd⟩ => ⟨?_, hd⟩⟩
    obtain hplace | hplace := hplace
    · exact hplace
    · obtain ⟨other, hdropped, -, hforeign⟩ := foreign_of_drops hd
      obtain ⟨foreignTable, htable⟩ := Option.isSome_iff_exists.mp (hheld.table_isSome)
      have hends : other.foreign.table = some foreignTable := by rw [← hforeign, ← hplace, htable]
      obtain rfl | hnone := hother other foreignTable hdropped hends
      · exact htable
      · by_cases hname : name = foreignTable
        · rw [htable, hname]
        · rw [table?_of_refreshTable hfirst hname] at hnone
          exact absurd hheld (not_holds_of_findTable?_none hnone htable)
  · have hforeignOf : ∀ key, Drops (some (.foreign other)) key →
      key.foreign.table = some foreignTable := by
      intro key hd
      obtain ⟨_, hsame, -, hkforeign⟩ := foreign_of_drops hd
      cases hsame
      rw [hkforeign, hforeign]
    constructor
    · refine (carries_refreshTable_twice hne.symm hfirst hsecond).congr fun place key _ => ?_
      exact and_congr_left fun hd => by rw [hforeignOf key hd]
    · intro place key hd hplace hplace'
      rw [hforeignOf key hd] at hplace'
      rw [(carries_refreshTable hsecond).2 place hplace',
        (carries_refreshTable hfirst).2 place hplace]

/-! ### Submissions -/

/-- The engine has answered the statement of a successful submission, and then the registry has
either been kept or changed as the request asks. -/
theorem exists_runs_of_submit {output : Output}
    (hrun : outcome (submit engine request) database = (.ok output, last)) :
    ∃ resolved text answer state, Runs engine request database resolved text (.ok answer) state ∧
      (resolved.method.changesSchema = false ∧ last.tables = database.tables ∨
        resolved.method.changesSchema = true ∧
          outcome ((registryChange resolved.method request).apply engine request.table.name)
            (database.withEngine state) = (.ok (), last)) := by
  have hends := ends_submit engine request database
  generalize outcome (submit engine request) database = ended at hends hrun
  cases hends with
  | rejected invalid => cases hrun
  | unanswered runs => cases hrun
  | unread runs unread => cases hrun
  | kept runs read keeps =>
    cases hrun
    exact ⟨_, _, _, _, runs, .inl ⟨keeps, rfl⟩⟩
  | @changed resolved text answer _ state runs read changes =>
    obtain ⟨hresult, rfl⟩ := Prod.mk.inj hrun
    obtain ⟨_, happly, -⟩ := map_eq_ok_iff.mp hresult
    refine ⟨resolved, text, answer, state, runs, .inr ⟨changes, ?_⟩⟩
    rw [← applyChange_of_validate runs.valid]
    exact Prod.ext happly rfl

theorem submit_ok_cases {output : Output}
    (hrun : outcome (submit engine request) database = (.ok output, last)) :
    ∃ resolved, request.validate (database.catalog engine) = .ok resolved ∧
      (resolved.method.changesSchema = false ∧ last.tables = database.tables ∨
        resolved.method.changesSchema = true ∧
          ∃ state, outcome
            ((registryChange resolved.method request).apply engine request.table.name)
            (database.withEngine state) = (.ok (), last)) := by
  obtain ⟨resolved, _, _, state, runs, hcases⟩ := exists_runs_of_submit hrun
  exact ⟨resolved, runs.valid, hcases.imp_right fun ⟨hschema, happly⟩ => ⟨hschema, state, happly⟩⟩

theorem spelled_of_validate {resolved : Resolved}
    (hvalid : request.validate (database.catalog engine) = .ok resolved) :
    Method.ofText request.method = .ok resolved.method :=
  (Request.resolve_eq_ok_iff.mp (Request.validate_eq_ok_iff.mp hvalid).1).2.1

/-- The new name of a table is free, and so is that of a new table. -/
theorem free_of_validate {resolved : Resolved}
    (h : request.validate (database.catalog engine) = .ok resolved) :
    (∀ new, registryChange resolved.method request = .rename new → database.table? new = none) ∧
      ∀ temporary, registryChange resolved.method request = .create temporary →
        database.table? request.table.name = none := by
  obtain ⟨hr, -, hschema⟩ := Request.validate_eq_ok_iff.mp h
  constructor
  · intro new hchange
    unfold registryChange at hchange
    split at hchange <;> cases hchange
    next reference hmethod hfields =>
      have hfit := (Request.checkSchema_eq_ok_iff.mp hschema).1
      simp only [Request.fitFields, hmethod, hfields] at hfit
      split at hfit
      · cases hfit
      · next hfree => exact Option.not_isSome_iff_eq_none.mp hfree
  · intro temporary hchange
    unfold registryChange at hchange
    split at hchange <;> cases hchange
    next hmethod =>
      obtain ⟨-, -, htable⟩ := Request.resolve_eq_ok_iff.mp hr
      simp only [Request.resolveTable, hmethod] at htable
      split at htable
      · cases htable
      · split at htable
        · cases htable
        · next hfree => exact Option.not_isSome_iff_eq_none.mp hfree

/-- A request drops a key exactly if it asks the registry for that. -/
theorem dropsKey_iff {resolved : Resolved}
    (h : request.validate (database.catalog engine) = .ok resolved) : request.dropsKey key ↔
      ∃ dropped, registryChange resolved.method request = .unlink dropped ∧
        Drops (some dropped) key := by
  obtain ⟨-, hmethod, -⟩ := Request.resolve_eq_ok_iff.mp (Request.validate_eq_ok_iff.mp h).1
  constructor
  · rintro ⟨hdrop, c, hfields, hsame⟩
    have hresolved : resolved.method = .dropConstraint := Except.ok.inj (hmethod.symm.trans hdrop)
    exact ⟨c, by simp only [registryChange, hresolved, hfields], c, rfl, hsame⟩
  · rintro ⟨dropped, hchange, c, hc, hsame⟩
    cases hc
    obtain ⟨hresolved, hfields⟩ := eq_of_registryChange_unlink hchange
    exact ⟨hresolved ▸ hmethod, dropped, hfields, hsame⟩

/-- What a successful submission makes of a registry: it carries over all keys but those that it
drops from its own table and from the table that they lead to, and may add others. -/
structure Updates (request : Request) (before after : List Table) (adds : ForeignKey → Prop) :
    Prop where
  carries : Carries before after
    (fun place key => (place.table = some request.table.name ∨ place.table = key.foreign.table) ∧
      request.dropsKey key) adds
  adds : ∀ key, adds key → ¬request.dropsKey key
  apart : ∀ place key, request.dropsKey key → place.table ≠ some request.table.name →
    place.table ≠ key.foreign.table → columnAt? after place = columnAt? before place

theorem updates_of_noDrop (hnone : ∀ key, ¬request.dropsKey key)
    (h : Carries before after (fun _ _ => False) adds) : Updates request before after adds :=
  ⟨h.congr fun _ key _ => by simp [hnone key], fun key _ => hnone key,
    fun _ key hd => absurd hd (hnone key)⟩

theorem exists_updates_of_submit {output : Output} (h : IsRegistry database.tables)
    (hrun : outcome (submit engine request) database = (.ok output, last)) :
    ∃ adds, Updates request database.tables last.tables adds := by
  obtain ⟨resolved, hvalid, hcases⟩ := submit_ok_cases hrun
  have hnone : (∀ dropped, registryChange resolved.method request ≠ .unlink dropped) →
      ∀ key, ¬request.dropsKey key := by
    intro hchange key hd
    obtain ⟨dropped, heq, -⟩ := (dropsKey_iff hvalid).mp hd
    exact hchange dropped heq
  obtain ⟨hkept, htables⟩ | ⟨-, state, happly⟩ := hcases
  · have hchange : ∀ dropped, registryChange resolved.method request ≠ .unlink dropped := by
      intro dropped heq
      have hmethod := (eq_of_registryChange_unlink heq).1
      rw [hmethod] at hkept
      cases hkept
    rw [htables]
    exact ⟨_, updates_of_noDrop (hnone hchange) carries_refl⟩
  · have hfree := free_of_validate hvalid
    have hstart : IsRegistry (database.withEngine state).tables := h
    cases hchange : registryChange resolved.method request with
    | remove =>
      rw [hchange] at happly hnone
      have hcarries := carries_remove hstart happly
      exact ⟨_, updates_of_noDrop (hnone nofun) hcarries⟩
    | rename new =>
      rw [hchange] at happly hnone
      have hcarries := carries_rename hstart (hfree.1 new hchange) happly
      exact ⟨_, updates_of_noDrop (hnone nofun) hcarries⟩
    | create temporary =>
      rw [hchange] at happly hnone
      have hname : (database.withEngine state).table? request.table.name = none :=
        hfree.2 temporary hchange
      have hcarries := carries_create hname happly
      exact ⟨_, updates_of_noDrop (hnone nofun) hcarries⟩
    | refresh =>
      rw [hchange] at happly hnone
      have hcarries := carries_refresh happly
      exact ⟨_, updates_of_noDrop (hnone nofun) hcarries⟩
    | link column foreign asked =>
      obtain ⟨hm, hf, hforeign⟩ := eq_of_registryChange_link hchange
      obtain ⟨table, target, hknown, hresolve, foreignTable, foreignColumn, other, hsplit,
        hne, -⟩ := Request.foreign_of_validate hvalid hm hf hforeign
      rw [hchange] at happly hnone
      obtain ⟨added, hcarries⟩ := carries_linkChange hstart hknown hresolve hsplit hne happly
      exact ⟨_, updates_of_noDrop (hnone nofun) hcarries⟩
    | unlink dropped =>
      rw [hchange] at happly
      obtain ⟨hcarries, hapart⟩ := carries_unlink happly
      have hdrops : ∀ key, Drops (some dropped) key ↔ request.dropsKey key := by
        intro key
        rw [dropsKey_iff hvalid, hchange]
        exact ⟨fun hd => ⟨dropped, rfl, hd⟩, fun ⟨_, heq, hd⟩ => by cases heq; exact hd⟩
      exact ⟨_, hcarries.congr fun place key _ => by rw [hdrops], fun _ => False.elim,
        fun place key hd => hapart place key ((hdrops key).mpr hd)⟩

/-- After a submission to a registry of two-sided keys, they are two-sided exactly if it has kept
the ends of keys together and dropped foreign keys from the table that they lead away from. -/
theorem twoSided_submit_iff {output : Output} (h : IsRegistry database.tables)
    (htwo : TwoSided database.tables)
    (hrun : outcome (submit engine request) database = (.ok output, last)) :
    TwoSided last.tables ↔ KeepsEnds request database.tables last.tables := by
  obtain ⟨adds, hupdates⟩ := exists_updates_of_submit h hrun
  have hlast : IsRegistry last.tables := by
    have hkept : IsRegistry (outcome (submit engine request) database).2.tables :=
      isRegistry_submit request h
    rwa [hrun] at hkept
  rw [hupdates.carries.twoSided_iff h hlast
    (fun key place hadd hd => hupdates.adds key hadd hd.2) htwo]
  refine forall_congr' fun key => forall_congr' fun hheld => ?_
  have htables := hheld.twoTables h
  by_cases hd : request.dropsKey key
  · have hleft : key.target.table ≠ some request.table.name →
      (columnAt? last.tables key.target).isSome := by
      intro hother
      rw [hupdates.apart _ key hd hother htables]
      exact hheld.isSome
    simp only [hd, htables, or_true, or_false, and_true, not_true_eq_false, and_false, iff_false,
      not_and, not_not, forall_const, IsEmpty.forall_iff]
    exact ⟨fun hkept => by_contra fun hother => hother (hkept (hleft hother)), fun hsame _ => hsame⟩
  · simp [hd]

/-! ### Runs from a connection -/

/-- The databases that successful submissions lead to, after a connection, as long as each of them
keeps the ends of foreign keys together. -/
inductive Session (engine : Engine ε) : Database ε → Prop
  | connected {closed opened : Database ε} (isClosed : closed.isOpen engine = false)
    (lists : ListsOnce engine closed) (run : outcome (connect engine) closed = (.ok (), opened)) :
    Session engine opened
  | submitted {former next : Database ε} {request output} (session : Session engine former)
    (run : outcome (submit engine request) former = (.ok output, next))
    (keeps : KeepsEnds request former.tables next.tables) : Session engine next

theorem described_of_loadRegistry (hrun : outcome (loadRegistry engine) database = (.ok (), last)) :
    ∃ names, listing engine database = .ok names ∧
      List.Forall₂ Table.IsDescribed names last.tables := by
  obtain ⟨names, start, hlisted, hrun⟩ := exists_outcome_of_bind hrun
  obtain ⟨tables, middle, hread, hset⟩ := exists_outcome_of_bind hrun
  have hdescribes : Keeps (fun _ => True) (List.Forall₂ Table.IsDescribed names) (fun _ => True)
      (names.mapM (describeTable engine)) :=
    Keeps.mapM fun name _ => keeps_describeTable engine name fun _ _ h => h
  have hdescribed := (hdescribes start trivial).2
  rw [hread] at hdescribed
  cases hset
  exact ⟨names, congrArg Prod.fst hlisted, hdescribed⟩

/-- A connection that is opened finds tables as the engine describes them, and nothing else. -/
theorem described_of_connect (hclosed : database.isOpen engine = false)
    (hrun : outcome (connect engine) database = (.ok (), last)) :
    (outcome engine.connect database.engine).1 = .ok () ∧
      ∃ names, listing engine (attachedTo engine database) = .ok names ∧
        List.Forall₂ Table.IsDescribed names last.tables := by
  rw [connect, outcome_bind_of_ok (outcome_get database), hclosed,
    if_neg Bool.false_ne_true] at hrun
  obtain ⟨_, opened, hconnect, hrun⟩ := exists_outcome_of_bind hrun
  rw [outcome_onEngine] at hconnect
  obtain ⟨hconnected, rfl⟩ := Prod.mk.inj hconnect
  rw [outcome_bind_of_ok (outcome_modify _ _), outcome_tryCatch, ← attachedTo] at hrun
  refine ⟨hconnected, ?_⟩
  cases hload : outcome (loadRegistry engine) (attachedTo engine database) with
  | mk result loaded =>
    rw [hload] at hrun
    cases result with
    | ok _ =>
      cases hrun
      exact described_of_loadRegistry hload
    | error e =>
      obtain ⟨_, _, -, hthrow⟩ := exists_outcome_of_bind hrun
      cases hthrow

theorem twoSided_of_described {names : List String} {tables : List Table}
    (h : List.Forall₂ Table.IsDescribed names tables) : TwoSided tables := by
  intro table ht column hc key hkey
  obtain ⟨i, hi, rfl⟩ := List.mem_iff_getElem.mp ht
  have hdescribed := h.get (h.length_eq ▸ hi) hi
  exact absurd hkey (hdescribed.noForeign column hc key)

/-- What a session keeps: the registry is one, and its keys are two-sided. -/
theorem Session.keeps (session : Session engine database) :
    IsRegistry database.tables ∧ TwoSided database.tables := by
  induction session with
  | connected isClosed lists run =>
    obtain ⟨hconnected, names, hlisted, hdescribed⟩ := described_of_connect isClosed run
    have hnames : names.Nodup := lists isClosed hconnected names hlisted
    exact ⟨isRegistry_of_described hnames hdescribed, twoSided_of_described hdescribed⟩
  | @submitted former next request output session run keeps ih =>
    have hregistry : IsRegistry (outcome (submit engine request) former).2.tables :=
      isRegistry_submit request ih.1
    rw [run] at hregistry
    exact ⟨hregistry, (twoSided_submit_iff ih.1 ih.2 run).mpr keeps⟩

/-- In a session, both ends of every foreign key are in the registry and hold it, and a check of a
value never misses what a key leads to.  The condition on the submissions cannot be weakened: after
one more submission the keys are two-sided exactly if it has kept their ends together. -/
theorem twoSided_of_session (session : Session engine database) :
    TwoSided database.tables ∧
      (∀ table ∈ database.tables, ∀ column ∈ table.columns, ∀ value e last,
        outcome (checkValue engine table.name column.name value) database = (.error e, last) →
          CheckFails engine e) ∧
      ∀ request output last, outcome (submit engine request) database = (.ok output, last) →
        (TwoSided last.tables ↔ KeepsEnds request database.tables last.tables) := by
  obtain ⟨hregistry, htwo⟩ := session.keeps
  refine ⟨htwo, ?_, ?_⟩
  · intro table ht column hc value e last hrun
    exact checkFails_of_checkValue hregistry htwo ht hc hrun
  · intro request output last hrun
    exact twoSided_submit_iff hregistry htwo hrun

/-! ### A table that is dropped without its key -/

/-- The shop, with a key from its orders to its users. -/
def linkedShop : Database Script := (outcome (submit Script.engine orderKeyRequest) shop).2

def orderKey : ForeignKey :=
  { name := "fk_orders_user_id_id", target := ⟨some "orders", "user_id"⟩,
    foreign := ⟨some "users", "id"⟩ }

def dropRequest (table : String) : Request := { method := "drop table", table := .byName table }

/-- The linked shop after one of its tables has been dropped. -/
def shopWithout (table : String) : Database Script :=
  (outcome (submit Script.engine (dropRequest table)) linkedShop).2

theorem outcome_connect_shop :
    outcome (connect Script.engine) { name := "db", engine := shopScript } = (.ok (), shop) :=
  Prod.ext (by decide +kernel) rfl

theorem outcome_orderKeyRequest :
    outcome (submit Script.engine orderKeyRequest) shop = (.ok .empty, linkedShop) :=
  Prod.ext (by decide +kernel) rfl

theorem outcome_dropRequest_orders :
    outcome (submit Script.engine (dropRequest "orders")) linkedShop =
      (.ok .empty, shopWithout "orders") :=
  Prod.ext (by decide +kernel) rfl

theorem keepsEnds_orderKeyRequest {after : List Table} :
    KeepsEnds orderKeyRequest shop.tables after := by
  have hnone : ∀ table ∈ shop.tables, ∀ column ∈ table.columns, ∀ c ∈ column.constraints,
      c.isKeyed = true := by decide +kernel
  rintro key ⟨column, hc, hkey⟩
  obtain ⟨table, htable, hcolumn⟩ := Option.bind_eq_some_iff.mp hc
  obtain ⟨name, -, hfound⟩ := Option.bind_eq_some_iff.mp htable
  have hmem : column ∈ table.columns := (Table.mem_of_columnNamed? hcolumn).1
  cases hnone table (mem_of_findTable? hfound) column hmem _ hkey

/-- The linked shop is a session; whether its keys are two-sided when its orders are dropped depends
on the columns that are left. -/
theorem twoSided_of_session_shop :
    Session Script.engine linkedShop ∧ TwoSided linkedShop.tables ∧
      Holds linkedShop.tables orderKey.target orderKey ∧
      (TwoSided (shopWithout "orders").tables ↔
        KeepsEnds (dropRequest "orders") linkedShop.tables (shopWithout "orders").tables) := by
  have hshop : Session Script.engine shop :=
    .connected (by decide +kernel) listsOnce_shop outcome_connect_shop
  have hsession : Session Script.engine linkedShop :=
    .submitted hshop outcome_orderKeyRequest keepsEnds_orderKeyRequest
  obtain ⟨htwo, -, hnext⟩ := twoSided_of_session hsession
  exact ⟨hsession, htwo, by decide +kernel, hnext _ _ _ outcome_dropRequest_orders⟩

/-- The registry of the linked shop does not follow a dropped table.  Without its orders, the users
still hold the key from them; without its users, a value of the orders is checked against a table
that is unknown. -/
theorem key_left_by_dropTable :
    outcome (connect Script.engine) { name := "db", engine := shopScript } = (.ok (), shop) ∧
      outcome (submit Script.engine orderKeyRequest) shop = (.ok .empty, linkedShop) ∧
      outcome (submit Script.engine (dropRequest "orders")) linkedShop =
        (.ok .empty, shopWithout "orders") ∧
      (Holds (shopWithout "orders").tables orderKey.foreign orderKey ∧
        columnAt? (shopWithout "orders").tables orderKey.target = none) ∧
      outcome (submit Script.engine (dropRequest "users")) linkedShop =
        (.ok .empty, shopWithout "users") ∧
      (outcome (checkValue Script.engine "orders" "user_id" (.int 1)) (shopWithout "users")).1 =
        .error (.table (.unknown "users")) := by
  refine ⟨outcome_connect_shop, outcome_orderKeyRequest, outcome_dropRequest_orders, ⟨?_, ?_⟩,
    Prod.ext ?_ rfl, ?_⟩ <;> decide +kernel

end Database

end SchemaQuery
