import SchemaQuery.Proofs.Column.Lookup
import SchemaQuery.Proofs.Except

/-! Attaching constraints to a column.  Every call attaches constraints one after the other, and of
the keys among all that were attached the column has the first of the strongest, where the first of
them was put.  Foreign keys all stay, in their order.  Calls that take constraints away never leave
a column with two keys. -/

namespace SchemaQuery.Column

variable {column : Column} {front rest all constraints : List Constraint} {c old : Constraint}

/-! ### One constraint -/

/-- The constraints with one more attached. -/
def attachOne (constraints : List Constraint) (added : Constraint) : List Constraint :=
  (attachTo constraints added).1

theorem exists_kind_of_isKeyed (h : c.isKeyed = true) : ∃ kind, c.kind? = some kind :=
  Option.isSome_iff_exists.mp h

theorem isKeyed_of_kind {kind : KeyKind} (h : c.kind? = some kind) : c.isKeyed = true := by
  simp [Constraint.isKeyed, h]

theorem attachOne_foreign (h : c.isKeyed = false) (all : List Constraint) :
    attachOne all c = all ++ [c] := by
  have hnone : c.kind? = none := by simpa [Constraint.isKeyed] using h
  simp [attachOne, attachTo, hnone]

theorem attachOne_first (h : ∀ other ∈ all, other.isKeyed = false) (c : Constraint) :
    attachOne all c = all ++ [c] := by
  have hnone : keyedIndex? all = none := List.findIdx?_eq_none_iff.mpr h
  cases hkind : c.kind? <;> simp [attachOne, attachTo, hkind, hnone]

/-- A stronger key takes the place of the one that is there. -/
theorem attachOne_keyed {kind other : KeyKind} (hfront : ∀ c ∈ front, c.isKeyed = false)
    (hold : old.kind? = some other) (hc : c.kind? = some kind) :
    attachOne (front ++ old :: rest) c =
      front ++ (if other.strength < kind.strength then c else old) :: rest := by
  have hnone : front.findIdx? Constraint.isKeyed = none := List.findIdx?_eq_none_iff.mpr hfront
  have hplace : keyedIndex? (front ++ old :: rest) = some front.length := by
    simp [keyedIndex?, List.findIdx?_append, List.findIdx?_cons, hnone, isKeyed_of_kind hold]
  by_cases hless : other.strength < kind.strength
  · simp [attachOne, attachTo, hc, hplace, hold, hless]
  · simp [attachOne, attachTo, hc, hplace, hold, hless]

theorem exists_key (h : ∃ c ∈ all, c.isKeyed = true) :
    ∃ front old rest, all = front ++ old :: rest ∧ old.isKeyed = true ∧
    ∀ c ∈ front, c.isKeyed = false := by
  cases hplace : all.findIdx? Constraint.isKeyed with
  | none =>
    obtain ⟨c, hc, hkeyed⟩ := h
    rw [List.findIdx?_eq_none_iff.mp hplace c hc] at hkeyed
    cases hkeyed
  | some place =>
    obtain ⟨front, old, rest, heq, -, hold, hfront⟩ := exists_of_findIdx? hplace
    exact ⟨front, old, rest, heq, hold, hfront⟩

/-- An index is no stronger than any key, so that a column with a key does not get one. -/
theorem attachOne_index (h : ∃ c ∈ all, c.isKeyed = true) (key : ColumnKey) (name : Option String) :
    attachOne all (Constraint.keyed .index key name) = all := by
  obtain ⟨front, old, rest, rfl, hold, hfront⟩ := exists_key h
  obtain ⟨kind, hkind⟩ := exists_kind_of_isKeyed hold
  have hindex : (Constraint.keyed .index key name).kind? = some .index := rfl
  have hweakest : ¬ kind.strength < KeyKind.index.strength := Nat.not_lt_zero kind.strength
  rw [attachOne_keyed hfront hkind hindex, if_neg hweakest]

/-- Being referred to attaches an index and then the foreign key. -/
theorem constraints_referencedBy (column : Column) (key : ForeignKey) :
    (column.referencedBy key).constraints = attachOne
    (attachOne column.constraints (Constraint.keyed .index column.key none)) (.foreign key) := by
  rw [attachOne_foreign rfl, referencedBy]
  cases hfound : column.find? (.kind .index) with
  | none => rfl
  | some c =>
    obtain ⟨front, rest, heq, hbest⟩ := find?_eq_some_iff.mp hfound
    have hkeyed : ∃ c ∈ column.constraints, c.isKeyed = true := by
      refine ⟨c, by simp [heq], ?_⟩
      rw [← Constraint.answers_index]
      exact hbest.answers
    rw [attachOne_index hkeyed]
    rfl

/-! ### What stays of many -/

/-- What a column has of all constraints that were attached to it: the foreign keys in their order,
and in the place of the first key the first of the strongest. -/
inductive Arranged : List Constraint → List Constraint → Prop
  | unkeyed {all : List Constraint} (h : ∀ c ∈ all, c.isKeyed = false) : Arranged all all
  | keyed {front rest before after : List Constraint} {first best : Constraint}
      (hfront : ∀ c ∈ front, c.isKeyed = false) (hfirst : first.isKeyed = true)
      (hall : front ++ first :: rest = before ++ best :: after)
      (hbest : (Lookup.kind .index).IsBest before best after) :
      Arranged (front ++ first :: rest) (front ++ best :: rest.filter fun c => !c.isKeyed)

theorem rank_index {kind : KeyKind} (h : c.kind? = some kind) :
    (Lookup.kind .index).rank c = kind.strength := by
  simp [Lookup.rank, h]

/-- One more constraint behind the others outranks the best of them or leaves it the best. -/
theorem Arranged.attach (h : Arranged all constraints) (c : Constraint) :
    Arranged (all ++ [c]) (attachOne constraints c) := by
  cases h with
  | unkeyed hall =>
    rw [attachOne_first hall]
    cases hc : c.isKeyed with
    | false => exact .unkeyed (List.forall_mem_append.mpr ⟨hall, List.forall_mem_singleton.mpr hc⟩)
    | true =>
      refine Arranged.keyed hall hc rfl
        ⟨c.answers_index.trans hc, fun other hother hanswers => ?_, by simp⟩
      rw [Constraint.answers_index, hall other hother] at hanswers
      cases hanswers
  | @keyed front rest before after first best hfront hfirst hall hbest =>
    have hmore : front ++ first :: (rest ++ [c]) = before ++ best :: (after ++ [c]) := by
      simpa using congrArg (· ++ [c]) hall
    have hlast : front ++ first :: (rest ++ [c]) = (before ++ best :: after) ++ c :: [] := by
      simpa using hmore
    have hlist : (front ++ first :: rest) ++ [c] = front ++ first :: (rest ++ [c]) := by simp
    rw [hlist]
    cases hc : c.isKeyed with
    | false =>
      have hkept : (Lookup.kind .index).IsBest before best (after ++ [c]) :=
        hbest.concat fun hanswers => absurd (c.answers_index.symm.trans hanswers) (by simp [hc])
      rw [attachOne_foreign hc]
      simpa [List.filter_append, hc] using Arranged.keyed hfront hfirst hmore hkept
    | true =>
      obtain ⟨kind, hkind⟩ := exists_kind_of_isKeyed hc
      obtain ⟨other, hother⟩ := exists_kind_of_isKeyed (best.answers_index.symm.trans hbest.answers)
      rw [attachOne_keyed hfront hother hkind]
      by_cases hless : other.strength < kind.strength
      · have hranks : (Lookup.kind .index).rank best < (Lookup.kind .index).rank c := by
          rwa [rank_index hother, rank_index hkind]
        rw [if_pos hless]
        simpa [List.filter_append, hc] using
          Arranged.keyed hfront hfirst hlast (hbest.outranked (c.answers_index.trans hc) hranks)
      · have hranks : (Lookup.kind .index).rank c ≤ (Lookup.kind .index).rank best := by
          rw [rank_index hkind, rank_index hother]
          omega
        rw [if_neg hless]
        simpa [List.filter_append, hc] using
          Arranged.keyed hfront hfirst hmore (hbest.concat fun _ => hranks)

theorem Arranged.foldl (h : Arranged all constraints) (more : List Constraint) :
    Arranged (all ++ more) (more.foldl attachOne constraints) := by
  induction more generalizing all constraints with
  | nil => simpa using h
  | cons c later ih => simpa using ih (h.attach c)

theorem Arranged.foreignKeys (h : Arranged all constraints) :
    (constraints.filter fun c => !c.isKeyed) = all.filter fun c => !c.isKeyed := by
  cases h with
  | unkeyed => rfl
  | keyed _ hfirst _ hbest =>
    have hbestKeyed := (Constraint.answers_index _).symm.trans hbest.answers
    simp [List.filter_append, List.filter_filter, hfirst, hbestKeyed]

/-! ### Calls -/

/-- A call that attaches constraints to a column.  A foreign key is noted at both of its ends: on
the column that refers to another one, and on the column that another one refers to. -/
inductive Attaching
  | key (kind : KeyKind)
  | newKey (kind : KeyKind) (name : Option String)
  | constraint (c : Constraint)
  | refer (other : Column) (name : Option String)
  | referred (other : Column) (name : Option String)

namespace Attaching

/-- The column after a call.  A call that fails leaves it as it was. -/
def apply (column : Column) : Attaching → Column
  | .key kind => column.withKey kind
  | .newKey kind name =>
    match column.newKey kind name with
    | .ok c => column.attach c
    | .error _ => column
  | .constraint c => column.attach c
  | .refer other name =>
    match column.link other name with
    | .ok (_, next, _) => next
    | .error _ => column
  | .referred other name =>
    match other.link column name with
    | .ok (_, _, next) => next
    | .error _ => column

/-- The constraints that a call attaches, none if it fails.  To be referred to counts as getting an
index. -/
def attaches (column : Column) : Attaching → List Constraint
  | .key kind => [Constraint.keyed kind column.key none]
  | .newKey kind name =>
    match column.newKey kind name with
    | .ok c => [c]
    | .error _ => []
  | .constraint c => [c]
  | .refer other name =>
    match column.link other name with
    | .ok (made, _, _) => [.foreign made]
    | .error _ => []
  | .referred other name =>
    match other.link column name with
    | .ok (made, _, _) => [Constraint.keyed .index column.key none, .foreign made]
    | .error _ => []

theorem constraints_apply (column : Column) (call : Attaching) :
    (call.apply column).constraints =
      (call.attaches column).foldl attachOne column.constraints := by
  cases call with
  | key kind => cases kind <;> rfl
  | newKey kind name =>
    simp only [apply, attaches]
    cases column.newKey kind name <;> rfl
  | constraint c => rfl
  | refer other name =>
    simp only [apply, attaches, link]
    cases ForeignKey.make column.key other.key name <;> rfl
  | referred other name =>
    simp only [apply, attaches, link]
    cases ForeignKey.make other.key column.key name with
    | error e => rfl
    | ok made => exact constraints_referencedBy column made

end Attaching

/-- The column after some calls. -/
def attachAll (column : Column) (calls : List Attaching) : Column :=
  calls.foldl Attaching.apply column

/-- All that some calls attach, from the first to the last. -/
def attachedBy : Column → List Attaching → List Constraint
  | _, [] => []
  | column, call :: later => call.attaches column ++ attachedBy (call.apply column) later

theorem arranged_attachAll (h : Arranged all column.constraints) (calls : List Attaching) :
    Arranged (all ++ column.attachedBy calls) (column.attachAll calls).constraints := by
  induction calls generalizing column all with
  | nil => simpa [attachedBy, attachAll] using h
  | cons call later ih =>
    have hnext : Arranged (all ++ call.attaches column) (call.apply column).constraints := by
      rw [Attaching.constraints_apply]
      exact h.foldl _
    simpa [attachedBy, attachAll] using ih hnext

/-- A call that attaches constraints to a column or may take some away. -/
inductive Call
  | attaching (call : Attaching)
  | keepOnly (text : String)
  | detach (name : String)

def Call.apply (column : Column) : Call → Column
  | .attaching call => call.apply column
  | .keepOnly text => column.keepOnly (Lookup.ofText text)
  | .detach name =>
    match column.detach? name with
    | some (_, next) => next
    | none => column

/-- A column has one key at most. -/
def HasOneKey (constraints : List Constraint) : Prop :=
  (constraints.filter Constraint.isKeyed).length ≤ 1

theorem HasOneKey.sublist {fewer : List Constraint} (h : HasOneKey constraints)
    (hsub : fewer.Sublist constraints) : HasOneKey fewer :=
  Nat.le_trans (hsub.filter Constraint.isKeyed).length_le h

theorem HasOneKey.attachOne (h : HasOneKey constraints) (c : Constraint) :
    HasOneKey (attachOne constraints c) := by
  by_cases hkeyed : ∃ other ∈ constraints, other.isKeyed = true
  · cases hc : c.isKeyed with
    | false =>
      rw [attachOne_foreign hc]
      simpa [HasOneKey, List.filter_append, hc] using h
    | true =>
      obtain ⟨front, old, rest, rfl, hold, hfront⟩ := exists_key hkeyed
      obtain ⟨kind, hkind⟩ := exists_kind_of_isKeyed hc
      obtain ⟨other, hother⟩ := exists_kind_of_isKeyed hold
      rw [attachOne_keyed hfront hother hkind]
      split
      · simpa [HasOneKey, List.filter_append, hc, hold] using h
      · exact h
  · have hnone : ∀ other ∈ constraints, other.isKeyed = false := by simpa using hkeyed
    rw [attachOne_first hnone, HasOneKey, List.filter_append,
      List.filter_eq_nil_iff.mpr (by simpa using hnone)]
    exact List.length_filter_le _ _

theorem HasOneKey.foldl (h : HasOneKey constraints) (more : List Constraint) :
    HasOneKey (more.foldl Column.attachOne constraints) := by
  induction more generalizing constraints with
  | nil => exact h
  | cons c later ih => exact ih (h.attachOne c)

theorem sublist_keepOnly (column : Column) (lookup : Lookup) :
    (column.keepOnly lookup).constraints.Sublist column.constraints := by
  cases hfound : column.find? lookup with
  | none => rw [keepOnly_of_find?_eq_none hfound]
  | some c =>
    obtain ⟨front, rest, heq, hbest⟩ := find?_eq_some_iff.mp hfound
    rw [keepOnly_of_isBest heq hbest, heq]
    exact List.filter_sublist.append (List.filter_sublist.cons_cons c)

theorem sublist_detach {name : String} {dropped : Constraint} {next : Column}
    (h : column.detach? name = some (dropped, next)) :
    next.constraints.Sublist column.constraints := by
  obtain ⟨found, -, heq⟩ := Option.map_eq_some_iff.mp h
  cases heq
  exact List.eraseP_sublist

theorem HasOneKey.call (h : HasOneKey column.constraints) (call : Call) :
    HasOneKey (call.apply column).constraints := by
  cases call with
  | attaching call =>
    rw [Call.apply, Attaching.constraints_apply]
    exact h.foldl _
  | keepOnly text => exact h.sublist (sublist_keepOnly column _)
  | detach name =>
    rw [Call.apply]
    split
    · next hfound => exact h.sublist (sublist_detach hfound)
    · exact h

theorem HasOneKey.calls (h : HasOneKey column.constraints) (calls : List Call) :
    HasOneKey (calls.foldl Call.apply column).constraints := by
  induction calls generalizing column with
  | nil => exact h
  | cons call later ih => exact ih (h.call call)

/-- A column without constraints, after any calls that attach some: of the keys among all that were
attached it has the first of the strongest, where the first of them was put, and it has every
foreign key, in their order.  With calls in between that look constraints up or drop them it still
has one key at most. -/
theorem attachAll_strongest (h : column.constraints = []) (calls : List Attaching) :
    Arranged (column.attachedBy calls) (column.attachAll calls).constraints ∧
    ((column.attachAll calls).constraints.filter fun c => !c.isKeyed) =
      (column.attachedBy calls).filter (fun c => !c.isKeyed) ∧
    ∀ steps : List Call,
      ((steps.foldl Call.apply column).constraints.filter Constraint.isKeyed).length ≤ 1 := by
  have hnone : Arranged [] column.constraints := by
    rw [h]
    exact .unkeyed (by simp)
  have harranged : Arranged (column.attachedBy calls) (column.attachAll calls).constraints :=
    arranged_attachAll hnone calls
  have hone : HasOneKey column.constraints := by
    rw [h]
    exact Nat.zero_le 1
  exact ⟨harranged, harranged.foreignKeys, hone.calls⟩

/-- A nullable column that refers to another one, gets an index, no primary key and two unique
constraints, and is then referred to.  The first unique constraint stands where the index was
put. -/
theorem attachAll_strongest_unique :
    let column : Column := { owner := some "orders", name := "user_id", type := "int" }
    let user : Column := { owner := some "users", name := "id", type := "int" }
    let item : Column := { owner := some "items", name := "order_user", type := "int" }
    let calls : List Attaching := [.refer user none, .newKey .index (some "ix"),
      .newKey .primary none, .newKey .unique (some "uq"),
      .constraint (.unique { name := "late", target := column.key }), .referred item none]
    column.constraints = [] ∧
    (column.attachAll calls).constraints.map Constraint.name =
      ["fk_orders_user_id_id", "uq", "fk_items_order_user_user_id"] ∧
    Arranged (column.attachedBy calls) (column.attachAll calls).constraints := by
  intro column user item calls
  exact ⟨rfl, by decide, (attachAll_strongest rfl calls).1⟩

end SchemaQuery.Column
