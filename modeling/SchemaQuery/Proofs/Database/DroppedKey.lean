import SchemaQuery.Proofs.Database.LinkedKey

/-! A foreign key that is dropped.  The key can be named through either of its tables, and what is
described again are the table that was named and the one that the key leads to.  So the copy on the
column that the key leads away from goes only when the table of that column was named. -/

namespace SchemaQuery

open Database

variable {tables : List Table} {place : ColumnKey} {key other : ForeignKey}

/-- Whether no column of a registry holds a foreign key, whatever the caches of its copies hold. -/
def HeldNowhere (tables : List Table) (key : ForeignKey) : Prop :=
  ∀ table ∈ tables, ∀ column ∈ table.columns, ∀ c ∈ column.constraints,
    (Constraint.foreign key).same c = false

/-- Whether the column at a place of a registry holds a copy of a foreign key. -/
def HoldsCopy (tables : List Table) (place : ColumnKey) (key : ForeignKey) : Prop :=
  ∃ copy, (Constraint.foreign key).same (.foreign copy) = true ∧ Holds tables place copy

/-- Copies of a key join the same columns. -/
theorem ends_of_same (h : (Constraint.foreign key).same (.foreign other) = true) :
    other.target = key.target ∧ other.foreign = key.foreign := by
  obtain ⟨copy, hcopy, heq⟩ := foreign_of_same h
  cases hcopy
  simp only [ForeignKey.mk.injEq] at heq
  exact ⟨heq.2.1.symm, heq.2.2.1.symm⟩

theorem drops_foreign_iff : Drops (some (.foreign key)) other ↔
    (Constraint.foreign key).same (.foreign other) = true := by
  have hsymm : (Constraint.foreign key).same (.foreign other) =
      (Constraint.foreign other).same (.foreign key) :=
    Bool.beq_comm
  rw [Drops, hsymm]
  simp

theorem heldNowhere_iff (h : IsRegistry tables) :
    HeldNowhere tables key ↔ ∀ place, ¬HoldsCopy tables place key := by
  constructor
  · rintro hnowhere place ⟨copy, hsame, column, hc, hcopy⟩
    obtain ⟨-, table, ht, hmem⟩ := key_of_columnAt? h hc
    rw [hnowhere table ht column hmem _ hcopy] at hsame
    cases hsame
  · intro hnone table ht column hc c hmem
    rw [Bool.eq_false_iff]
    intro hsame
    obtain ⟨copy, rfl, -⟩ := foreign_of_same hsame
    exact hnone column.key ⟨copy, hsame, column, columnAt?_key h ht hc, hmem⟩

namespace Database

variable {ε : Type} {engine : Engine ε} {database last : Database ε} {request : Request}
  {output : Output}

/-- What dropping a foreign key carries over. -/
theorem carries_of_drop (hmethod : Method.ofText request.method = .ok .dropConstraint)
    (hfields : request.fields = .constraint (.foreign key))
    (hrun : outcome (submit engine request) database = (.ok output, last)) :
    Carries database.tables last.tables
        (fun place other =>
          (place.table = some request.table.name ∨ place.table = other.foreign.table) ∧
          Drops (some (.foreign key)) other) (fun _ => False) ∧
      ∀ place other, Drops (some (.foreign key)) other → place.table ≠ some request.table.name →
        place.table ≠ other.foreign.table →
          columnAt? last.tables place = columnAt? database.tables place := by
  obtain ⟨resolved, hvalid, hcases⟩ := submit_ok_cases hrun
  have hresolved : resolved.method = .dropConstraint :=
    Except.ok.inj ((spelled_of_validate hvalid).symm.trans hmethod)
  have hchange : registryChange resolved.method request = .unlink (.foreign key) := by
    simp only [registryChange, hresolved, hfields]
  obtain ⟨hkept, -⟩ | ⟨-, state, happly⟩ := hcases
  · rw [hresolved] at hkept
    cases hkept
  · rw [hchange] at happly
    obtain ⟨hcarries, hapart⟩ := carries_unlink happly
    exact ⟨hcarries, hapart⟩

/-- A foreign key that has been dropped is held nowhere exactly if the request was on the table that
it leads away from, or its column there held no copy of it.  All other foreign keys stay where their
columns do. -/
theorem heldNowhere_dropped_iff (h : IsRegistry database.tables)
    (hmethod : Method.ofText request.method = .ok .dropConstraint)
    (hfields : request.fields = .constraint (.foreign key))
    (hrun : outcome (submit engine request) database = (.ok output, last)) :
    (HeldNowhere last.tables key ↔
      key.target.table = some request.table.name ∨ ¬HoldsCopy database.tables key.target key) ∧
    ∀ place other, (Constraint.foreign key).same (.foreign other) = false →
      (Holds last.tables place other ↔
        Holds database.tables place other ∧ (columnAt? last.tables place).isSome) := by
  obtain ⟨hcarries, hapart⟩ := carries_of_drop hmethod hfields hrun
  have hlast : IsRegistry last.tables := by
    have hkept : IsRegistry (outcome (submit engine request) database).2.tables :=
      isRegistry_submit request h
    rwa [hrun] at hkept
  constructor
  · rw [heldNowhere_iff hlast]
    constructor
    · intro hnone
      rw [or_iff_not_imp_left]
      rintro hother ⟨copy, hsame, hheld⟩
      -- the column at this end is out of reach of both refreshes
      have hends := ends_of_same hsame
      have htables : key.target.table ≠ copy.foreign.table := hends.1 ▸ hheld.twoTables h
      have hdrops := drops_foreign_iff.mpr hsame
      have hat := hapart key.target copy hdrops hother htables
      exact hnone key.target ⟨copy, hsame, (holds_congr hat).mpr hheld⟩
    · rintro hcondition place ⟨copy, hsame, hheld⟩
      have hends := ends_of_same hsame
      have hdrops := drops_foreign_iff.mpr hsame
      obtain ⟨-, hbefore, hkept⟩ | ⟨⟨⟩, -⟩ := (hcarries place copy).mp hheld
      obtain rfl | rfl := hbefore.atEnd h
      · obtain hname | hnone := hcondition
        · exact hkept ⟨.inl (hends.1 ▸ hname), hdrops⟩
        · exact hnone ⟨copy, hsame, hends.1 ▸ hbefore⟩
      · exact hkept ⟨.inr rfl, hdrops⟩
  · intro place other hdifferent
    have hspared : ¬Drops (some (.foreign key)) other := by
      rw [drops_foreign_iff, hdifferent]
      exact Bool.false_ne_true
    rw [hcarries place other]
    simp [hspared, and_comm]

/-! ### The key of the shop -/

/-- The request to drop the key of the shop, on one of its tables. -/
def dropKeyRequest (table : String) : Request :=
  { method := "drop constraint", table := .byName table, fields := .constraint (.foreign orderKey) }

/-- The linked shop after its key has been dropped from one of its tables. -/
def unlinkedShop (table : String) : Database Script :=
  (outcome (submit Script.engine (dropKeyRequest table)) linkedShop).2

theorem reachable_linkedShop : Reachable Script.engine linkedShop :=
  .submit (.connect (.new "db" shopScript) listsOnce_shop) orderKeyRequest

theorem isRegistry_linkedShop : IsRegistry linkedShop.tables :=
  isRegistry_submit orderKeyRequest (isRegistry_connect isRegistry_nil listsOnce_shop)

/-- Dropped from the orders, which it leads away from, the key is gone on both sides. -/
theorem heldNowhere_dropped_iff_orders : IsRegistry linkedShop.tables ∧
    Method.ofText (dropKeyRequest "orders").method = .ok .dropConstraint ∧
    outcome (submit Script.engine (dropKeyRequest "orders")) linkedShop =
      (.ok .empty, unlinkedShop "orders") ∧
    (Holds linkedShop.tables orderKey.target orderKey ∧
      Holds linkedShop.tables orderKey.foreign orderKey) ∧
    HeldNowhere (unlinkedShop "orders").tables orderKey := by
  have hmethod : Method.ofText (dropKeyRequest "orders").method = .ok .dropConstraint := by
    decide +kernel
  have hrun : outcome (submit Script.engine (dropKeyRequest "orders")) linkedShop =
      (.ok .empty, unlinkedShop "orders") := Prod.ext (by decide +kernel) rfl
  have hnowhere := (heldNowhere_dropped_iff isRegistry_linkedShop hmethod rfl hrun).1
  exact ⟨isRegistry_linkedShop, hmethod, hrun, by decide +kernel, hnowhere.mpr (.inl rfl)⟩

/-- Dropped from the users, which it leads to, the key stays on the orders. -/
theorem key_left_by_drop : Reachable Script.engine linkedShop ∧
    Holds linkedShop.tables orderKey.foreign orderKey ∧
    outcome (submit Script.engine (dropKeyRequest "users")) linkedShop =
      (.ok .empty, unlinkedShop "users") ∧
    Holds (unlinkedShop "users").tables orderKey.target orderKey ∧
    ¬HeldNowhere (unlinkedShop "users").tables orderKey := by
  have hrun : outcome (submit Script.engine (dropKeyRequest "users")) linkedShop =
      (.ok .empty, unlinkedShop "users") := Prod.ext (by decide +kernel) rfl
  have hregistry : IsRegistry (unlinkedShop "users").tables :=
    isRegistry_submit (dropKeyRequest "users") isRegistry_linkedShop
  have hheld : Holds (unlinkedShop "users").tables orderKey.target orderKey := by decide +kernel
  refine ⟨reachable_linkedShop, by decide +kernel, hrun, hheld, fun hnowhere => ?_⟩
  exact (heldNowhere_iff hregistry).mp hnowhere orderKey.target ⟨orderKey, by decide +kernel, hheld⟩

end Database

end SchemaQuery
