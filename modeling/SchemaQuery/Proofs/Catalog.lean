import Mathlib.Data.List.Nodup
import SchemaQuery.Catalog

/-! Registries of tables.  Putting a table in, or taking one out, concerns the entries of its name;
all others stay, in the order in which they were. -/

namespace SchemaQuery

variable {tables : List Table} {table found : Table} {name : String}

theorem putTable_nil : putTable [] table = [table] := rfl

theorem putTable_cons : putTable (found :: tables) table =
    if found.name = table.name then table :: tables else found :: putTable tables table := by
  rw [putTable, putTable, List.findIdx?_cons]
  by_cases h : found.name = table.name
  · simp [h]
  · simp only [beq_iff_eq, h, if_false]
    cases tables.findIdx? fun known => known.name == table.name <;> rfl

@[simp] theorem findTable?_nil : findTable? [] name = none := rfl

theorem findTable?_cons : findTable? (found :: tables) name =
    if found.name = name then some found else findTable? tables name := by
  rw [findTable?, List.find?_cons]
  by_cases h : found.name = name
  · simp [h]
  · simp [beq_false_of_ne h, h, findTable?]

theorem name_of_findTable? (h : findTable? tables name = some table) : table.name = name := by
  simpa using List.find?_some h

/-- A look-up after a table has been put in. -/
theorem findTable?_putTable : findTable? (putTable tables table) name =
    if table.name = name then some table else findTable? tables name := by
  induction tables with
  | nil => rw [putTable_nil, findTable?_cons]
  | cons found rest ih =>
    rw [putTable_cons]
    by_cases hf : found.name = table.name
    · rw [if_pos hf, findTable?_cons, findTable?_cons, hf]
      split <;> rfl
    · rw [if_neg hf, findTable?_cons, findTable?_cons, ih]
      by_cases hn : table.name = name
      · rw [if_pos hn, if_neg (fun h => hf (h.trans hn.symm)), if_pos hn]
      · rw [if_neg hn, if_neg hn]

theorem findTable?_putTable_of_ne (h : table.name ≠ name) :
    findTable? (putTable tables table) name = findTable? tables name := by
  rw [findTable?_putTable, if_neg h]

/-- A look-up after a table of another name has been taken out. -/
theorem findTable?_eraseP_of_ne {other : String} (h : other ≠ name) :
    findTable? (tables.eraseP fun table => table.name == other) name = findTable? tables name := by
  induction tables with
  | nil => rfl
  | cons found rest ih =>
    rw [List.eraseP_cons]
    by_cases hf : found.name = other
    · simp [hf, findTable?_cons, h]
    · simp [beq_false_of_ne hf, findTable?_cons, ih]

theorem findTable?_eq_none_iff : findTable? tables name = none ↔ name ∉ tables.map Table.name := by
  rw [findTable?, List.find?_eq_none]
  simp

/-- With distinct names, a table that is taken out is not found any more. -/
theorem findTable?_eraseP_self (h : (tables.map Table.name).Nodup) :
    findTable? (tables.eraseP fun table => table.name == name) name = none := by
  induction tables with
  | nil => rfl
  | cons found rest ih =>
    obtain ⟨hfound, hrest⟩ := List.nodup_cons.mp h
    rw [List.eraseP_cons]
    by_cases hf : found.name = name
    · simpa [hf, findTable?_eq_none_iff] using hfound
    · simp [beq_false_of_ne hf, findTable?_cons, hf, ih hrest]

theorem mem_of_findTable? (h : findTable? tables name = some table) : table ∈ tables :=
  List.mem_of_find?_eq_some h

theorem findTable?_of_mem (h : (tables.map Table.name).Nodup) (ht : table ∈ tables) :
    findTable? tables table.name = some table := by
  cases hfound : findTable? tables table.name with
  | none => exact absurd (List.mem_map_of_mem ht) (findTable?_eq_none_iff.mp hfound)
  | some other =>
    exact congrArg some (List.inj_on_of_nodup_map h (mem_of_findTable? hfound) ht
      (name_of_findTable? hfound))

theorem mem_putTable {other : Table} (h : other ∈ putTable tables table) :
    other = table ∨ other ∈ tables := by
  induction tables with
  | nil => exact .inl (List.mem_singleton.mp h)
  | cons found rest ih =>
    rw [putTable_cons] at h
    split at h
    · exact (List.mem_cons.mp h).imp_right (List.mem_cons_of_mem _)
    · obtain rfl | h := List.mem_cons.mp h
      · exact .inr List.mem_cons_self
      · exact (ih h).imp_right (List.mem_cons_of_mem _)

theorem nodup_names_putTable (h : (tables.map Table.name).Nodup) :
    ((putTable tables table).map Table.name).Nodup := by
  induction tables with
  | nil => exact List.pairwise_singleton _ _
  | cons found rest ih =>
    obtain ⟨hfound, hrest⟩ := List.nodup_cons.mp h
    rw [putTable_cons]
    split
    · next hname => rwa [List.map_cons, ← hname, ← List.map_cons]
    · next hname =>
      refine List.nodup_cons.mpr ⟨fun hmem => ?_, ih hrest⟩
      obtain ⟨other, hother, heq⟩ := List.mem_map.mp hmem
      obtain rfl | hother := mem_putTable hother
      · exact hname heq.symm
      · exact hfound (List.mem_map.mpr ⟨other, hother, heq⟩)

/-- The entries of other names than these. -/
def tablesOutside (names : List String) (tables : List Table) : List Table :=
  tables.filter fun table => !names.contains table.name

variable {names : List String}

theorem tablesOutside_cons : tablesOutside names (found :: tables) =
    if found.name ∈ names then tablesOutside names tables
    else found :: tablesOutside names tables := by
  simp [tablesOutside, List.filter_cons]

theorem tablesOutside_putTable (h : table.name ∈ names) :
    tablesOutside names (putTable tables table) = tablesOutside names tables := by
  induction tables with
  | nil => simp [putTable_nil, tablesOutside, h]
  | cons found rest ih =>
    rw [putTable_cons]
    by_cases hf : found.name = table.name
    · simp [hf, tablesOutside_cons, h]
    · simp [hf, tablesOutside_cons, ih]

theorem tablesOutside_eraseP (h : name ∈ names) :
    tablesOutside names (tables.eraseP fun table => table.name == name) =
      tablesOutside names tables := by
  induction tables with
  | nil => rfl
  | cons found rest ih =>
    rw [List.eraseP_cons]
    by_cases hf : found.name = name
    · simp [hf, tablesOutside_cons, h]
    · simp [beq_false_of_ne hf, tablesOutside_cons, ih]

end SchemaQuery
