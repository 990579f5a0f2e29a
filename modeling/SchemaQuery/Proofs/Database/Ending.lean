import SchemaQuery.Proofs.Database.SchemaChange
import SchemaQuery.Proofs.Request.Statement

/-! How a submission can end.  A request is rejected, or its statement runs; the statement fails, or
it has an answer; the answer cannot be read, or it can; and only then, when the method changes the
schema, the registry is brought up to date. -/

namespace SchemaQuery.Database

variable {ε : Type} {engine : Engine ε} {request : Request} {before : Database ε}
  {resolved : Resolved}

/-- What is said about the answer to the statement of a request. -/
def answerOptions (method : Method) (request : Request) : ExecOptions :=
  { expectsRows := method.returnsRows, maxRows := request.modifiers.maxRows }

/-- Whether a request is valid, and running its statement has a result and leaves the engine in a
state. -/
structure Runs (engine : Engine ε) (request : Request) (before : Database ε) (resolved : Resolved)
    (text : String) (result : Except Error (Option (List Row))) (state : ε) : Prop where
  valid : request.validate (before.catalog engine) = .ok resolved
  isText : request.text (before.catalog engine) = .ok text
  run : outcome (engine.execute text (answerOptions resolved.method request)) before.engine =
    (result, state)

/-- A statement is run in one way only. -/
theorem Runs.unique {text text' : String} {result result' : Except Error (Option (List Row))}
    {state state' : ε} {other : Resolved}
    (h : Runs engine request before resolved text result state)
    (h' : Runs engine request before other text' result' state') :
    other = resolved ∧ text' = text ∧ result' = result ∧ state' = state := by
  cases h.valid.symm.trans h'.valid
  cases h.isText.symm.trans h'.isText
  cases h.run.symm.trans h'.run
  exact ⟨rfl, rfl, rfl, rfl⟩

/-- The statement of a change of the schema is no description. -/
theorem Runs.describeText_ne {text : String} {result : Except Error (Option (List Row))} {state : ε}
    (h : Runs engine request before resolved text result state)
    (hm : resolved.method.changesSchema = true)
    (name : String) : describeText name ≠ text := by
  obtain ⟨hr, hshape, hschema⟩ := Request.validate_eq_ok_iff.mp h.valid
  obtain ⟨statement, hs⟩ := Request.exists_statementOf hr hshape hschema
  cases (Request.text_of_resolve hr hs).symm.trans h.isText
  exact Statement.text_ne_describeText (Request.isDefinition_of_statementOf hs hm) name

/-- The results of a submission, and the database after each. -/
inductive Ends (engine : Engine ε) (request : Request) (before : Database ε) :
    Except Error Output × Database ε → Prop
  | rejected {e : Error} (invalid : request.validate (before.catalog engine) = .error e) :
    Ends engine request before (.error e, before)
  | unanswered {resolved text e state}
    (runs : Runs engine request before resolved text (.error e) state) :
    Ends engine request before (.error e, before.withEngine state)
  | unread {resolved text answer e state}
    (runs : Runs engine request before resolved text (.ok answer) state)
    (unread : Output.ofAnswer resolved.method request.modifiers.maxRows answer = .error e) :
    Ends engine request before (.error e, before.withEngine state)
  | kept {resolved text answer output state}
    (runs : Runs engine request before resolved text (.ok answer) state)
    (read : Output.ofAnswer resolved.method request.modifiers.maxRows answer = .ok output)
    (keeps : resolved.method.changesSchema = false) :
    Ends engine request before (.ok output, before.withEngine state)
  | changed {resolved text answer output state}
    (runs : Runs engine request before resolved text (.ok answer) state)
    (read : Output.ofAnswer resolved.method request.modifiers.maxRows answer = .ok output)
    (changes : resolved.method.changesSchema = true) :
    Ends engine request before
      ((outcome (applyChange engine resolved.method request) (before.withEngine state)).1.map
          fun _ => output,
        (outcome (applyChange engine resolved.method request) (before.withEngine state)).2)

/-- The connection of a valid request is open, so that its statement reaches the engine. -/
theorem ends_submit (engine : Engine ε) (request : Request) (before : Database ε) :
    Ends engine request before (outcome (submit engine request) before) := by
  rw [submit, outcome_bind_of_ok (outcome_get before)]
  cases hv : request.validate (before.catalog engine) with
  | error e =>
    rw [outcome_bind_of_error (outcome_lift _ _)]
    exact .rejected hv
  | ok resolved =>
    obtain ⟨hr, hshape, hschema⟩ := Request.validate_eq_ok_iff.mp hv
    obtain ⟨statement, hs⟩ := Request.exists_statementOf hr hshape hschema
    have hopen : before.isOpen engine = true := (Request.resolve_eq_ok_iff.mp hr).1
    have htext : request.text (before.catalog engine) = .ok statement.text :=
      Request.text_of_resolve hr hs
    rw [outcome_bind_of_ok (outcome_lift _ _), hs, outcome_bind_of_ok (outcome_lift _ _)]
    dsimp only
    rw [← answerOptions]
    cases he : outcome (engine.execute statement.text (answerOptions resolved.method request))
      before.engine with
    | mk result state =>
    have hruns : Runs engine request before resolved statement.text result state := ⟨hv, htext, he⟩
    have hrun : outcome (run engine statement.text (answerOptions resolved.method request)) before =
        (result, before.withEngine state) := by
      rw [outcome_run, if_pos hopen, he]
    cases result with
    | error e =>
      rw [outcome_bind_of_error hrun]
      exact .unanswered hruns
    | ok answer =>
      rw [outcome_bind_of_ok hrun]
      cases ho : Output.ofAnswer resolved.method request.modifiers.maxRows answer with
      | error e =>
        rw [outcome_bind_of_error (outcome_lift _ _)]
        exact .unread hruns ho
      | ok output =>
        rw [outcome_bind_of_ok (outcome_lift _ _)]
        cases hm : resolved.method.changesSchema with
        | false => exact .kept hruns ho hm
        | true =>
          have hended := Ends.changed hruns ho hm
          rw [← outcome_map, ← bind_pure_comp] at hended
          exact hended

end SchemaQuery.Database
