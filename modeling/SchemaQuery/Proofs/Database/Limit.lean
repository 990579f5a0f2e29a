import SchemaQuery.Engine.Scripted
import SchemaQuery.Proofs.Database.Ending
import SchemaQuery.Proofs.Request.Modifiers

/-! Limits on the number of rows.  Only lists of rows are meant to be cut, but the statement of
every method that reads rows carries the limit to the engine, so that a count or a list of names is
made from the rows that are left. -/

namespace SchemaQuery

variable {ε α : Type} {m n : Option Nat} {rows : List Row}

/-- As many of the rows, from the first on, as a limit allows. -/
def firstRows (maxRows : Option Nat) (rows : List Row) : List Row := maxRows.elim rows rows.take

@[simp] theorem firstRows_none : firstRows none rows = rows := rfl

@[simp] theorem firstRows_some (most : Nat) : firstRows (some most) rows = rows.take most := rfl

theorem isPrefix_firstRows (maxRows : Option Nat) (rows : List Row) :
    firstRows maxRows rows <+: rows := by
  cases maxRows with
  | none => simp
  | some most => exact List.take_prefix most rows

theorem firstRows_firstRows : firstRows m (firstRows m rows) = firstRows m rows := by
  cases m <;> simp [List.take_take]

theorem head?_firstRows : (firstRows m rows).head? = if m = some 0 then none else rows.head? := by
  rcases m with _ | _ | most
  · simp
  · simp
  · cases rows <;> simp

/-- A pass over the rows that one limit allows and one over those that another does. -/
theorem mapM_firstRows_eq_iff {read : Row → Except Error α} :
    (firstRows m rows).mapM read = (firstRows n rows).mapM read ↔
      (firstRows m rows).length = (firstRows n rows).length ∨
        ∃ row ∈ firstRows m rows, row ∈ firstRows n rows ∧ ∃ e, read row = .error e := by
  rcases List.prefix_or_prefix_of_prefix (isPrefix_firstRows m rows)
    (isPrefix_firstRows n rows) with h | h
  · rw [mapM_prefix_eq_iff h]
    refine or_congr_right ⟨?_, ?_⟩
    · rintro ⟨row, hrow, hfails⟩
      exact ⟨row, hrow, h.subset hrow, hfails⟩
    · rintro ⟨row, hrow, -, hfails⟩
      exact ⟨row, hrow, hfails⟩
  · rw [eq_comm, mapM_prefix_eq_iff h, eq_comm]
    refine or_congr_right ⟨?_, ?_⟩
    · rintro ⟨row, hrow, hfails⟩
      exact ⟨row, h.subset hrow, hrow, hfails⟩
    · rintro ⟨row, -, hrow, hfails⟩
      exact ⟨row, hrow, hfails⟩

/-! ### What is read from the rows that are left -/

/-- The number that the rows of an answer to a count tell. -/
def countOf (rows : List Row) : Value := (rows.head?.bind Row.first?).getD (.int 0)

/-- Whether reading a name from every row gives the same under both limits: they leave equally many
rows, or a row that both leave cannot be read. -/
def SameNames (read : Row → Except Error String) (m n : Option Nat) (rows : List Row) : Prop :=
  (firstRows m rows).length = (firstRows n rows).length ∨
    ∃ row ∈ firstRows m rows, row ∈ firstRows n rows ∧ ∃ e, read row = .error e

/-- Whether the rows of a full answer mean the same to a method under both limits. -/
def Method.SameReading (m n : Option Nat) (rows : List Row) : Method → Prop
  | .select | .distinct => (firstRows m rows).length = (firstRows n rows).length
  | .count => (m = some 0 ↔ n = some 0) ∨ countOf rows = .int 0
  | .showTables => SameNames MySql.listedTable m n rows
  | .describe => SameNames MySql.describedDefinition m n rows
  | _ => True

namespace Output

theorem countOf_firstRows :
    countOf (firstRows m rows) = if m = some 0 then .int 0 else countOf rows := by
  rw [countOf, head?_firstRows]
  split <;> rfl

theorem firstRows_eq_iff :
    firstRows m rows = firstRows n rows ↔
      (firstRows m rows).length = (firstRows n rows).length := by
  refine ⟨congrArg List.length, fun hlength => ?_⟩
  rcases List.prefix_or_prefix_of_prefix (isPrefix_firstRows m rows)
    (isPrefix_firstRows n rows) with h | h
  · exact h.eq_of_length hlength
  · exact (h.eq_of_length hlength.symm).symm

theorem ofRows_lists_eq_iff :
    ofRows .select m (firstRows m rows) = ofRows .select n (firstRows n rows) ↔
      (firstRows m rows).length = (firstRows n rows).length := by
  have hlist : ∀ k, ofRows .select k (firstRows k rows) = .ok (.rows (firstRows k rows)) := by
    intro k
    nth_rewrite 2 [← firstRows_firstRows]
    cases k <;> rfl
  rw [hlist, hlist, ← firstRows_eq_iff, Except.ok.injEq, Output.rows.injEq]

theorem map_names_eq_iff {x y : Except Error (List String)} :
    x.map Output.names = y.map Output.names ↔ x = y := by
  cases x <;> cases y <;> simp

theorem ofRows_firstRows_eq_iff {method : Method} :
    ofRows method m (firstRows m rows) = ofRows method n (firstRows n rows) ↔
      method.SameReading m n rows := by
  cases method with
  | select | distinct => exact ofRows_lists_eq_iff
  | count =>
    have hcount : ∀ k, ofRows .count k (firstRows k rows) =
        .ok (.scalar (if k = some 0 then .int 0 else countOf rows)) := by
      intro k
      rw [← countOf_firstRows]
      rfl
    rw [hcount, hcount, Method.SameReading]
    by_cases hm : m = some 0 <;> by_cases hn : n = some 0 <;> simp [hm, hn, eq_comm]
  | showTables => exact map_names_eq_iff.trans mapM_firstRows_eq_iff
  | describe => exact map_names_eq_iff.trans mapM_firstRows_eq_iff
  | _ => simp [ofRows, Method.SameReading]

end Output

/-! ### Submissions -/

/-- Whether the engine, in a state, answers every statement that reads rows with the first rows of
its full answer. -/
def Engine.AnswersFirst (engine : Engine ε) (state : ε) : Prop :=
  ∀ text maxRows, (outcome (engine.execute text { expectsRows := true, maxRows }) state).1 =
    (outcome (engine.execute text { expectsRows := true }) state).1.map
      (Option.map (firstRows maxRows))

theorem Script.answersFirst {script : Script} (h : script.keepAll = false) :
    Script.engine.AnswersFirst script := by
  intro text maxRows
  change (outcome (Script.execute text _) script).1 =
    (outcome (Script.execute text _) script).1.map _
  rw [Script.execute, Script.execute, outcome_bind_of_ok (outcome_get script),
    outcome_bind_of_ok (outcome_get script)]
  rcases script.answers.lookup text with _ | _ | message
  · cases maxRows <;> simp
  · simp [h]
    rfl
  · simp

/-- The request with that limit on rows, or with none. -/
def Request.limitedTo (request : Request) (maxRows : Option Nat) : Request :=
  request.withModifiers { request.modifiers with maxRows }

theorem Modifiers.usedBy_limited (modifiers : Modifiers) (maxRows : Option Nat) (method : Method)
    (fields : Fields) :
    { modifiers with maxRows : Modifiers }.usedBy method fields =
      modifiers.usedBy method fields := by
  cases method with
  | addConstraint kind => cases kind <;> rfl
  | alterColumn => cases fields <;> rfl
  | _ => rfl

/-- No limit is looked at before the statement is run. -/
theorem Request.validate_text_limitedTo (catalog : Catalog) {request : Request} {method : Method}
    (hm : Method.ofText request.method = .ok method) (maxRows : Option Nat) :
    (request.limitedTo maxRows).validate catalog = request.validate catalog ∧
      (request.limitedTo maxRows).text catalog = request.text catalog := by
  have hlimited := validate_text_used catalog (request.limitedTo maxRows) hm
  have hplain := validate_text_used catalog request hm
  have hused : (request.limitedTo maxRows).modifiers.usedBy method
      (request.limitedTo maxRows).fields = request.modifiers.usedBy method request.fields :=
      Modifiers.usedBy_limited _ _ _ _
  rw [hused] at hlimited
  exact ⟨hlimited.1.trans hplain.1.symm, hlimited.2.trans hplain.2.symm⟩

namespace Database

variable {engine : Engine ε} {request : Request} {before : Database ε} {resolved : Resolved}

/-- A request is rejected with its fault, or its statement has a result, which is read and given
back if nothing else is to be done. -/
theorem result_cases (engine : Engine ε) (request : Request) (before : Database ε) :
    (∃ e, request.validate (before.catalog engine) = .error e ∧
        (outcome (submit engine request) before).1 = .error e) ∨
      ∃ resolved text result state, Runs engine request before resolved text result state ∧
        (resolved.method.changesSchema = false → (outcome (submit engine request) before).1 =
          result >>= Output.ofAnswer resolved.method request.modifiers.maxRows) := by
  have hends := ends_submit engine request before
  generalize outcome (submit engine request) before = ended at hends ⊢
  cases hends with
  | rejected invalid => exact .inl ⟨_, invalid, rfl⟩
  | unanswered runs => exact .inr ⟨_, _, _, _, runs, fun _ => rfl⟩
  | unread runs unread => exact .inr ⟨_, _, _, _, runs, fun _ => unread.symm⟩
  | kept runs read => exact .inr ⟨_, _, _, _, runs, fun _ => read.symm⟩
  | changed runs _ changes =>
    exact .inr ⟨_, _, _, _, runs, fun hkeeps => nomatch hkeeps.symm.trans changes⟩

theorem result_of_invalid {e : Error} (h : request.validate (before.catalog engine) = .error e) :
    (outcome (submit engine request) before).1 = .error e := by
  rcases result_cases engine request before with ⟨other, hv, hresult⟩ | ⟨_, _, _, _, hruns, -⟩
  · cases h.symm.trans hv
    exact hresult
  · exact nomatch h.symm.trans hruns.valid

theorem result_of_runs {text : String} {result : Except Error (Option (List Row))} {state : ε}
    (hkeeps : resolved.method.changesSchema = false)
    (h : Runs engine request before resolved text result state) :
    (outcome (submit engine request) before).1 =
      result >>= Output.ofAnswer resolved.method request.modifiers.maxRows := by
  rcases result_cases engine request before with ⟨_, hv, -⟩ | ⟨_, _, _, _, hruns, hresult⟩
  · exact nomatch h.valid.symm.trans hv
  · obtain ⟨rfl, rfl, rfl, rfl⟩ := h.unique hruns
    exact hresult hkeeps

theorem changesSchema_of_returnsRows {method : Method} (h : method.returnsRows = true) :
    method.changesSchema = false := by
  cases method <;> first | rfl | cases h

/-- The result under a limit, told by the full answer. -/
theorem result_limitedTo {text : String} {full : Except Error (Option (List Row))} {state : ε}
    (hm : Method.ofText request.method = .ok resolved.method)
    (hrows : resolved.method.returnsRows = true)
    (hfirst : engine.AnswersFirst before.engine)
    (h : Runs engine (request.limitedTo none) before resolved text full state)
    (maxRows : Option Nat) :
    (outcome (submit engine (request.limitedTo maxRows)) before).1 =
      full.map (Option.map (firstRows maxRows)) >>= Output.ofAnswer resolved.method maxRows := by
  have hnone := Request.validate_text_limitedTo (before.catalog engine) hm none
  have hlimited := Request.validate_text_limitedTo (before.catalog engine) hm maxRows
  have hrun := h.run
  rw [answerOptions, hrows] at hrun
  have hruns : Runs engine (request.limitedTo maxRows) before resolved text
      (full.map (Option.map (firstRows maxRows)))
      (outcome (engine.execute text { expectsRows := true, maxRows }) before.engine).2 := by
    refine ⟨hlimited.1.trans (hnone.1.symm.trans h.valid),
      hlimited.2.trans (hnone.2.symm.trans h.isText), ?_⟩
    rw [answerOptions, hrows]
    have hfull : (outcome (engine.execute text { expectsRows := true }) before.engine).1 = full :=
      congrArg Prod.fst hrun
    rw [← hfull]
    exact Prod.ext (hfirst text maxRows) rfl
  exact result_of_runs (changesSchema_of_returnsRows hrows) hruns

/-- A request that reads rows has the same output under both limits exactly if the rows of the full
answer, if there is one with rows, mean the same under both. -/
theorem submit_limitedTo_eq_iff {method : Method} (hm : Method.ofText request.method = .ok method)
    (hrows : method.returnsRows = true) (hfirst : engine.AnswersFirst before.engine)
    (m n : Option Nat) :
    (outcome (submit engine (request.limitedTo m)) before).1 =
        (outcome (submit engine (request.limitedTo n)) before).1 ↔
      ∀ resolved text rows state,
        Runs engine (request.limitedTo none) before resolved text (.ok (some rows)) state →
          method.SameReading m n rows := by
  rcases result_cases engine (request.limitedTo none) before with
    ⟨e, hv, -⟩ | ⟨resolved, text, full, state, h, -⟩
  · have hinvalid : ∀ k, (outcome (submit engine (request.limitedTo k)) before).1 = .error e := by
      intro k
      have hnone := Request.validate_text_limitedTo (before.catalog engine) hm none
      have hk := Request.validate_text_limitedTo (before.catalog engine) hm k
      exact result_of_invalid (hk.1.trans (hnone.1.symm.trans hv))
    refine iff_of_true ((hinvalid m).trans (hinvalid n).symm) ?_
    intro resolved text rows state h
    exact nomatch hv.symm.trans h.valid
  · obtain rfl : resolved.method = method := by
      have hr := (Request.validate_eq_ok_iff.mp h.valid).1
      cases (Request.method_of_resolve hr).symm.trans hm
      rfl
    rw [result_limitedTo hm hrows hfirst h, result_limitedTo hm hrows hfirst h]
    rcases full with e | _ | rows
    · refine iff_of_true rfl fun _ _ _ _ h' => ?_
      exact nomatch (h.unique h').2.2.1
    · refine iff_of_true rfl fun _ _ _ _ h' => ?_
      exact nomatch (h.unique h').2.2.1
    · refine Iff.trans Output.ofRows_firstRows_eq_iff ⟨fun hsame _ _ _ _ h' => ?_,
        fun hall => hall _ _ _ _ h⟩
      cases (h.unique h').2.2.1
      exact hsame

/-! ### A count without its only row -/

/-- A script with three users. -/
def countScript : Script :=
  ((({} : Script).listTables [.text "users"]).describe "users"
    [[.text "id", .text "int", .text "NO", .text "PRI", .null, .text ""]]).answer
    "select count(*) from `users`;" (.rows (some [⟨[("count(*)", .int 3)]⟩]))

def countDatabase : Database Script :=
  (outcome (connect Script.engine) { name := "db", engine := countScript }).2

def countRequest : Request := { method := "count", table := .byName "users" }

theorem answersFirst_countDatabase : Script.engine.AnswersFirst countDatabase.engine :=
  Script.answersFirst (by decide +kernel)

theorem submit_limitedTo_eq_iff_count :
    Method.ofText countRequest.method = .ok .count ∧
      Script.engine.AnswersFirst countDatabase.engine ∧
      ((outcome (submit Script.engine (countRequest.limitedTo (some 1))) countDatabase).1 =
          (outcome (submit Script.engine (countRequest.limitedTo none)) countDatabase).1 ↔
        ∀ resolved text rows state, Runs Script.engine (countRequest.limitedTo none) countDatabase
          resolved text (.ok (some rows)) state → Method.count.SameReading (some 1) none rows) := by
  have hcount : Method.ofText countRequest.method = .ok .count := by decide +kernel
  exact ⟨hcount, answersFirst_countDatabase,
    submit_limitedTo_eq_iff hcount rfl answersFirst_countDatabase (some 1) none⟩

/-- Three users are counted as none when no row may be given. -/
theorem count_lost_by_limit :
    ∃ before : Database Script,
      before = (outcome (connect Script.engine) { name := "db", engine := countScript }).2 ∧
      before.isOpen Script.engine = true ∧ Script.engine.AnswersFirst before.engine ∧
      (outcome (submit Script.engine (countRequest.limitedTo none)) before).1 =
        .ok (.scalar (.int 3)) ∧
      (outcome (submit Script.engine (countRequest.limitedTo (some 0))) before).1 =
        .ok (.scalar (.int 0)) :=
  ⟨countDatabase, rfl, by decide +kernel, answersFirst_countDatabase, by decide +kernel,
    by decide +kernel⟩

end Database

end SchemaQuery
