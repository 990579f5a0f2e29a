import Mathlib.Data.List.Basic
import SchemaQuery.Column

/-! Looking constraints up.  A look-up finds the first of the best answers: the first of the
strongest keys where a kind is asked for, the first of a name otherwise.  To keep only that one
takes the other answers away and nothing else, and after that the same look-up has one answer. -/

namespace SchemaQuery

variable {lookup : Lookup} {front front' rest rest' all : List Constraint} {c c' : Constraint}
  {place : Nat}

/-! ### Best answers -/

/-- Every keyed constraint serves as an index. -/
theorem Constraint.answers_index (c : Constraint) : c.answers (.kind .index) = c.isKeyed := by
  cases c <;> rfl

namespace Lookup

/-- How well a constraint answers.  Where a kind is asked for, a stronger key answers better;
constraints of one name answer equally well. -/
def rank : Lookup → Constraint → Nat
  | .kind _, c => c.kind?.elim 0 KeyKind.strength
  | .name _, _ => 0

/-- The first of the best answers, with the constraints in front of it and those behind it. -/
structure IsBest (lookup : Lookup) (front : List Constraint) (c : Constraint)
    (rest : List Constraint) : Prop where
  answers : c.answers lookup = true
  first : ∀ other ∈ front, other.answers lookup = true → lookup.rank other < lookup.rank c
  best : ∀ other ∈ rest, other.answers lookup = true → lookup.rank other ≤ lookup.rank c

/-- The constraints that do not answer, in their order. -/
def others (lookup : Lookup) (all : List Constraint) : List Constraint :=
  all.filter fun c => !c.answers lookup

@[simp] theorem others_append :
    lookup.others (front ++ rest) = lookup.others front ++ lookup.others rest :=
  List.filter_append ..

theorem others_cons_of_answers (h : c.answers lookup = true) :
    lookup.others (c :: rest) = lookup.others rest := by
  simp [others, h]

@[simp] theorem others_others : lookup.others (lookup.others all) = lookup.others all := by
  simp [others, List.filter_filter]

@[simp] theorem filter_answers_others : (lookup.others all).filter (·.answers lookup) = [] := by
  simp [others]

/-- The best constraint stays the best in front of one that does not outrank it. -/
theorem IsBest.concat {last : Constraint} (h : lookup.IsBest front c rest)
    (hlast : last.answers lookup = true → lookup.rank last ≤ lookup.rank c) :
    lookup.IsBest front c (rest ++ [last]) :=
  ⟨h.answers, h.first, List.forall_mem_append.mpr ⟨h.best, List.forall_mem_singleton.mpr hlast⟩⟩

/-- A constraint that outranks the best one outranks all. -/
theorem IsBest.outranked {last : Constraint} (h : lookup.IsBest front c rest)
    (hanswers : last.answers lookup = true) (hless : lookup.rank c < lookup.rank last) :
    lookup.IsBest (front ++ c :: rest) last [] := by
  refine ⟨hanswers, fun other hother hserves => Nat.lt_of_le_of_lt ?_ hless, by simp⟩
  obtain hother | hother := List.mem_append.mp hother
  · exact Nat.le_of_lt (h.first other hother hserves)
  · obtain rfl | hother := List.mem_cons.mp hother
    · exact Nat.le_refl _
    · exact h.best other hother hserves

theorem IsBest.length_le (h : lookup.IsBest front c rest) (h' : lookup.IsBest front' c' rest')
    (heq : front ++ c :: rest = front' ++ c' :: rest') : front'.length ≤ front.length := by
  obtain ⟨more, rfl, hmore⟩ | ⟨more, rfl, -⟩ := List.append_eq_append_iff.mp heq
  · cases more with
    | nil => simp
    | cons d later =>
      -- Otherwise each of the two would stand in front of the other or be outranked by it.
      cases hmore
      have hless := h'.first c (by simp) h.answers
      have hmost := h.best c' (by simp) h'.answers
      omega
  · simp

/-- Only one constraint is the first of the best answers. -/
theorem IsBest.length_eq (h : lookup.IsBest front c rest) (h' : lookup.IsBest front' c' rest')
    (heq : front ++ c :: rest = front' ++ c' :: rest') : front.length = front'.length :=
  Nat.le_antisymm (h'.length_le h heq.symm) (h.length_le h' heq)

end Lookup

/-! ### Where look-ups lead -/

namespace Column

theorem exists_of_findIdx? {p : Constraint → Bool} (h : all.findIdx? p = some place) :
    ∃ front c rest, all = front ++ c :: rest ∧ front.length = place ∧ p c = true ∧
      ∀ other ∈ front, p other = false := by
  induction all generalizing place with
  | nil => simp at h
  | cons d later ih =>
    rw [List.findIdx?_cons] at h
    by_cases hd : p d = true
    · rw [if_pos hd] at h
      cases h
      exact ⟨[], d, later, rfl, rfl, hd, by simp⟩
    · rw [if_neg hd] at h
      obtain ⟨found, hfound, rfl⟩ := Option.map_eq_some_iff.mp h
      obtain ⟨front, c, rest, rfl, rfl, hc, hfront⟩ := ih hfound
      exact ⟨d :: front, c, rest, rfl, rfl, hc, by simpa [hd] using hfront⟩

theorem strongestFirst_pairwise :
    KeyKind.strongestFirst.Pairwise fun a b => b.strength < a.strength := by decide

theorem mem_strongestFirst (kind : KeyKind) : kind ∈ KeyKind.strongestFirst := by
  cases kind <;> decide

theorem findIndex?_eq_none_iff :
    findIndex? all lookup = none ↔ ∀ c ∈ all, c.answers lookup = false := by
  cases lookup with
  | name name => simp [findIndex?, List.findIdx?_eq_none_iff, Constraint.answers]
  | kind asked =>
    simp only [findIndex?, List.findSome?_eq_none_iff, List.findIdx?_eq_none_iff, List.mem_filter,
      Constraint.answers]
    constructor
    · intro h c hc
      cases hkind : c.kind? with
      | none => rfl
      | some kind =>
        by_contra hserves
        have hnot := h kind ⟨mem_strongestFirst kind, by simpa using hserves⟩ c hc
        simp [hkind] at hnot
    · rintro h kind ⟨-, hserves⟩ c hc
      by_contra hkind
      have hnot := h c hc
      simp_all

/-- Of the kinds that serve, the strongest is looked for first. -/
theorem exists_best_of_findIndex? (h : findIndex? all lookup = some place) :
    ∃ front c rest, all = front ++ c :: rest ∧ front.length = place ∧
      lookup.IsBest front c rest := by
  cases lookup with
  | name name =>
    obtain ⟨front, c, rest, rfl, rfl, hc, hfront⟩ := exists_of_findIdx? h
    refine ⟨front, c, rest, rfl, rfl, hc, fun other hother hanswers => ?_,
      fun other _ _ => Nat.le_refl 0⟩
    rw [Constraint.answers, hfront other hother] at hanswers
    cases hanswers
  | kind asked =>
    obtain ⟨stronger, kind, weaker, hkinds, hfound, hnone⟩ := List.findSome?_eq_some_iff.mp h
    obtain ⟨front, c, rest, rfl, rfl, hc, hfront⟩ := exists_of_findIdx? hfound
    have hck : c.kind? = some kind := by simpa using hc
    have hserves : asked.servedBy kind = true :=
      (List.mem_filter.mp (hkinds ▸ List.mem_append_right stronger List.mem_cons_self)).2
    have hweaker : ∀ other ∈ weaker, other.strength < kind.strength := by
      have hsorted := strongestFirst_pairwise.filter asked.servedBy
      rw [hkinds] at hsorted
      exact (List.pairwise_cons.mp (List.pairwise_append.mp hsorted).2.1).1
    -- No constraint is of a kind that was looked for before.
    have hkind : ∀ other ∈ front ++ c :: rest, other.answers (.kind asked) = true →
        ∃ k, other.kind? = some k ∧ (k = kind ∨ k.strength < kind.strength) := by
      intro other hother hanswers
      obtain ⟨k, hk, hserved⟩ := (Option.any_eq_true _ _).mp hanswers
      have hmem : k ∈ stronger ++ kind :: weaker :=
        hkinds ▸ List.mem_filter.mpr ⟨mem_strongestFirst k, hserved⟩
      obtain hmem | hmem := List.mem_append.mp hmem
      · have hnot := List.findIdx?_eq_none_iff.mp (hnone k hmem) other hother
        simp [hk] at hnot
      · exact ⟨k, hk, (List.mem_cons.mp hmem).imp_right (hweaker k)⟩
    refine ⟨front, c, rest, rfl, rfl, ?_, fun other hother hanswers => ?_,
      fun other hother hanswers => ?_⟩
    · simp [Constraint.answers, hck, hserves]
    · obtain ⟨k, hk, rfl | hless⟩ := hkind other (by simp [hother]) hanswers
      · have hnot := hfront other hother
        simp [hk] at hnot
      · simpa [Lookup.rank, hk, hck] using hless
    · obtain ⟨k, hk, rfl | hless⟩ := hkind other (by simp [hother]) hanswers
      · simp [Lookup.rank, hk, hck]
      · simpa [Lookup.rank, hk, hck] using Nat.le_of_lt hless

theorem findIndex?_eq_some_iff : findIndex? all lookup = some place ↔
    ∃ front c rest, all = front ++ c :: rest ∧ front.length = place ∧
      lookup.IsBest front c rest := by
  refine ⟨exists_best_of_findIndex?, ?_⟩
  rintro ⟨front, c, rest, rfl, rfl, hbest⟩
  cases hfound : findIndex? (front ++ c :: rest) lookup with
  | none =>
    have hnot := findIndex?_eq_none_iff.mp hfound c (by simp)
    rw [hbest.answers] at hnot
    cases hnot
  | some place =>
    obtain ⟨front', c', rest', heq, rfl, hbest'⟩ := exists_best_of_findIndex? hfound
    rw [hbest.length_eq hbest' heq]

variable {column : Column}

/-- A look-up finds the first of the best answers. -/
theorem find?_eq_some_iff : column.find? lookup = some c ↔
    ∃ front rest, column.constraints = front ++ c :: rest ∧ lookup.IsBest front c rest := by
  rw [find?, Option.bind_eq_some_iff]
  constructor
  · rintro ⟨place, hplace, hc⟩
    obtain ⟨front, d, rest, heq, rfl, hbest⟩ := findIndex?_eq_some_iff.mp hplace
    have hd : c = d := by simpa [heq, eq_comm] using hc
    subst hd
    exact ⟨front, rest, heq, hbest⟩
  · rintro ⟨front, rest, heq, hbest⟩
    exact ⟨front.length, findIndex?_eq_some_iff.mpr ⟨front, c, rest, heq, rfl, hbest⟩,
      by simp [heq]⟩

theorem find?_eq_none_iff :
    column.find? lookup = none ↔ ∀ c ∈ column.constraints, c.answers lookup = false := by
  rw [← findIndex?_eq_none_iff, find?, Option.bind_eq_none_iff]
  constructor
  · intro h
    cases hplace : findIndex? column.constraints lookup with
    | none => rfl
    | some place =>
      obtain ⟨front, c, rest, heq, rfl, -⟩ := findIndex?_eq_some_iff.mp hplace
      have hnot := h _ hplace
      simp [heq] at hnot
  · intro h
    simp [h]

/-! ### Keeping one answer -/

/-- Away from the place that is kept, the constraints that do not answer stay. -/
theorem filter_zipIdx_of_ne (lookup : Lookup) (all : List Constraint) (start : Nat)
    (h : place < start ∨ start + all.length ≤ place) :
    ((all.zipIdx start).filter fun (c, i) => i == place || !c.answers lookup).map (·.1) =
      lookup.others all := by
  induction all generalizing start with
  | nil => rfl
  | cons d later ih =>
    have hne : start ≠ place := by
      simp only [List.length_cons] at h
      omega
    have hlater := ih (start + 1) (by simp only [List.length_cons] at h; omega)
    rw [List.zipIdx_cons, Lookup.others, List.filter_cons, List.filter_cons]
    cases hd : d.answers lookup <;> simpa [hne, hd, Lookup.others] using hlater

theorem keepOnly_of_find?_eq_none (h : column.find? lookup = none) :
    column.keepOnly lookup = column := by
  rw [keepOnly, findIndex?_eq_none_iff.mpr (find?_eq_none_iff.mp h)]

theorem keepOnly_of_isBest (heq : column.constraints = front ++ c :: rest)
    (hbest : lookup.IsBest front c rest) :
    column.keepOnly lookup =
      { column with constraints := lookup.others front ++ c :: lookup.others rest } := by
  have hplace : findIndex? column.constraints lookup = some front.length :=
    findIndex?_eq_some_iff.mpr ⟨front, c, rest, heq, rfl, hbest⟩
  have hfront :=
    filter_zipIdx_of_ne lookup front 0 (.inr (Nat.le_of_eq (Nat.zero_add front.length)))
  have hrest :=
    filter_zipIdx_of_ne lookup rest (front.length + 1) (.inl (Nat.lt_succ_self front.length))
  simp only [keepOnly, hplace]
  rw [heq, List.zipIdx_append, List.zipIdx_cons, List.filter_append, List.map_append, hfront]
  simp [hrest]

/-- The answers that go stood in front of the one that is kept, or behind it. -/
theorem kept?_of_isBest (heq : column.constraints = front ++ c :: rest)
    (hbest : lookup.IsBest front c rest) : column.kept? lookup = some c := by
  have hplace : findIndex? column.constraints lookup = some front.length :=
    findIndex?_eq_some_iff.mpr ⟨front, c, rest, heq, rfl, hbest⟩
  have hcount : front.length = front.countP (·.answers lookup) + (lookup.others front).length := by
    rw [Lookup.others, ← List.countP_eq_length_filter]
    simpa using List.length_eq_countP_add_countP (·.answers lookup) (l := front)
  have hmoved : front.length - front.countP (·.answers lookup) = (lookup.others front).length := by
    omega
  rw [kept?, hplace, Option.bind_some, keepOnly_of_isBest heq hbest, heq, List.take_left, hmoved]
  simp

/-- Once the other answers have gone, the one that is left is the best. -/
theorem isBest_others (h : lookup.IsBest front c rest) :
    lookup.IsBest (lookup.others front) c (lookup.others rest) := by
  refine ⟨h.answers, fun other hother => h.first other ?_, fun other hother => h.best other ?_⟩
  · exact List.mem_of_mem_filter hother
  · exact List.mem_of_mem_filter hother

/-- Keeping the constraint that a text asks for.  What comes out is what the look-up finds; it then
is the only answer, where it stood among the constraints that do not answer, and to keep it once
more changes nothing.  Without an answer nothing changes at all. -/
theorem keepOnly_sole_answer (column : Column) (text : String) :
    let lookup := Lookup.ofText text
    let after := column.keepOnly lookup
    column.kept? lookup = column.find? lookup ∧
    (column.find? lookup = none → (∀ c ∈ column.constraints, c.answers lookup = false) ∧
      after = column) ∧
    ∀ c, column.find? lookup = some c →
      (∃ front rest, column.constraints = front ++ c :: rest ∧ lookup.IsBest front c rest ∧
        after = { column with constraints := lookup.others front ++ c :: lookup.others rest }) ∧
      after.constraints.filter (·.answers lookup) = [c] ∧
      lookup.others after.constraints = lookup.others column.constraints ∧
      after.kept? lookup = some c ∧ after.keepOnly lookup = after := by
  intro lookup after
  refine ⟨?_, fun hnone => ?_, fun c hfound => ?_⟩
  · cases hfound : column.find? lookup with
    | none =>
      have hplace := findIndex?_eq_none_iff.mpr (find?_eq_none_iff.mp hfound)
      rw [kept?, hplace]
      rfl
    | some c =>
      obtain ⟨front, rest, heq, hbest⟩ := find?_eq_some_iff.mp hfound
      exact kept?_of_isBest heq hbest
  · exact ⟨find?_eq_none_iff.mp hnone, keepOnly_of_find?_eq_none hnone⟩
  · obtain ⟨front, rest, heq, hbest⟩ := find?_eq_some_iff.mp hfound
    have hafter : after =
        { column with constraints := lookup.others front ++ c :: lookup.others rest } :=
      keepOnly_of_isBest heq hbest
    have hconstraints : after.constraints = lookup.others front ++ c :: lookup.others rest := by
      rw [hafter]
    have hbest' := isBest_others hbest
    refine ⟨⟨front, rest, heq, hbest, hafter⟩, ?_, ?_, kept?_of_isBest hconstraints hbest', ?_⟩
    · simp [hconstraints, hbest.answers]
    · simp [hconstraints, heq, Lookup.others_cons_of_answers hbest.answers]
    · rw [keepOnly_of_isBest hconstraints hbest', hafter]
      simp

end Column

end SchemaQuery
