import SchemaQuery.Constraint.Source
import SchemaQuery.Row

/-! Engines: what runs statements.  An engine is a table of operations on a state of any type, each
of which may fail.  A recorded engine also keeps the list of the calls that reach it. -/

namespace SchemaQuery

/-- What the caller of a statement says about its answer. -/
structure ExecOptions where
  expectsRows : Bool
  maxRows : Option Nat := none
deriving DecidableEq

/-- The operations of an engine.  An answer is nothing when the statement has no rows to give. -/
structure Engine (ε : Type) where
  isOpen : ε → Bool
  connect : Action ε Unit
  execute : String → ExecOptions → Action ε (Option (List Row))
  commit : Action ε Unit
  rollback : Action ε Unit
  close : Action ε Unit

/-- A call of an engine. -/
inductive Call
  | connect
  | execute (text : String) (options : ExecOptions)
  | commit
  | rollback
  | close
deriving DecidableEq

/-- The word for a call that is no statement. -/
def Call.event? : Call → Option String
  | .connect => some "connect"
  | .execute _ _ => none
  | .commit => some "commit"
  | .rollback => some "rollback"
  | .close => some "close"

/-- The statement of a call, and what is expected of it. -/
def Call.statement? : Call → Option (String × ExecOptions)
  | .execute text options => some (text, options)
  | _ => none

/-- The state of an engine together with the calls so far. -/
structure Recorded (ε : Type) where
  state : ε
  calls : List Call := []

namespace Recorded

variable {ε α : Type}

def statements (recorded : Recorded ε) : List (String × ExecOptions) :=
  recorded.calls.filterMap Call.statement?

/-- An operation of the engine, noted as a call. -/
def noting (call : Call) (operation : Action ε α) : Action (Recorded ε) α := do
  let recorded ← get
  let (result, state) := operation.run.run recorded.state
  set { state, calls := recorded.calls ++ [call] : Recorded ε }
  result

end Recorded

/-- The engine with its calls recorded. -/
def Engine.recorded {ε : Type} (engine : Engine ε) : Engine (Recorded ε) where
  isOpen recorded := engine.isOpen recorded.state
  connect := Recorded.noting .connect engine.connect
  execute text options := Recorded.noting (.execute text options) (engine.execute text options)
  commit := Recorded.noting .commit engine.commit
  rollback := Recorded.noting .rollback engine.rollback
  close := Recorded.noting .close engine.close

end SchemaQuery
