import Cohort.Failure
import Cohort.Log.Record

/-!
# Actions

An action of the service leaves a trace: the calls it makes to the file system
and the database, and the records it logs.  It ends with a result or with a
failure, and the trace up to a failure is kept.

The database is known by its answers: what the first, second, … statement of an
action returns, and which of the calls that open and set up a connection it
refuses.
-/

namespace Cohort

/-- A call to the world outside. -/
inductive Call where
  | makeDirectories (path : String)
  | connect (path : String)
  /-- A statement that sets up the connection. -/
  | pragma (sql : String)
  | execute (sql : String) (params : Option (List Value))
  | createFunction (name : String) (arity : Nat)
  | commit
  | rollback
  | close

/-- What a statement returns: the names of the columns, and the rows. -/
structure Cursor where
  columns : List String := []
  rows : List Value := []

/-- A refusal of the database. -/
structure DatabaseError where
  /-- The name of the kind of refusal. -/
  name : String
  text : String

def DatabaseError.isError (e : DatabaseError) : Bool := e.name != "Warning"

/-- How the database answers. -/
structure Answers where
  /-- The answer to each statement of an action, counted from zero. -/
  statement : Nat → Except DatabaseError Cursor
  /-- The refusal of a call that opens a connection or sets it up. -/
  refusal : Call → Option DatabaseError := fun _ => none

/-- The trace of an action. -/
structure Trace where
  calls : List Call := []
  records : List Log.Record := []

/-- Whether a call is a statement that the database answers. -/
def Call.isStatement : Call → Bool
  | .execute _ _ => true
  | _ => false

def Trace.statements (t : Trace) : Nat := t.calls.countP Call.isStatement

def Trace.addCalls (t : Trace) (cs : List Call) : Trace := { t with calls := t.calls ++ cs }

abbrev Action := ExceptT Failure (StateM Trace)

namespace Action

def call (cs : List Call) : Action Unit := modify (·.addCalls cs)

def log (level : Log.Level) (logger message : String) : Action Unit :=
  modify fun t => { t with records := t.records ++ [⟨level, logger, message⟩] }

def logAll (level : Log.Level) (logger : String) (messages : List String) : Action Unit :=
  modify fun t => { t with records := t.records ++ messages.map (⟨level, logger, ·⟩) }

/-- Ends with a failure if something was misused. -/
def orMisuse {α : Type} (r : Except Misuse α) : Action α :=
  match r with
  | .ok a => pure a
  | .error m => throw (.misuse m)

def execute (answers : Answers) (sql : String) (params : Option (List Value)) :
    Action (Except DatabaseError Cursor) := do
  let t ← get
  call [.execute sql params]
  return answers.statement t.statements

end Action

end Cohort
