import Cohort.Preview.Action

/-!
# Connections

Every use of the database happens on a connection of its own.  Once it is
opened, it is set up, closed last whatever happens, and a writer commits once if
all went well, the setup included, and rolls back once if not.  A connection that
is not opened is not closed either.
-/

namespace Cohort

def sqlFunctions : List (String × Nat) := [("ll_to_earth", 2), ("earth_distance", 2)]

/-- Who uses a connection. -/
structure ConnectionUse where
  path : String
  writer : Bool
  functions : List (String × Nat) := []

namespace ConnectionUse

open Cohort.Action

def setup (u : ConnectionUse) : List Call :=
  [.pragma "PRAGMA journal_mode=WAL", .pragma "PRAGMA busy_timeout=5000"]
    ++ u.functions.map fun f => .createFunction f.1 f.2

/-- Makes the calls that set up a connection, up to one that is refused. -/
def setUp (answers : Answers) : List Call → Action Unit
  | [] => pure ()
  | c :: cs => do
    call [c]
    match answers.refusal c with
    | some e => throw (.database e.name)
    | none => setUp answers cs

def ending (u : ConnectionUse) (success : Bool) : List Call :=
  if u.writer then [if success then .commit else .rollback, .close] else [.close]

def runOpen {α : Type} (u : ConnectionUse) (answers : Answers) (body : Action α) : Action α :=
  ExceptT.mk do
    let r ← (setUp answers u.setup >>= fun _ => body).run
    modify (·.addCalls (u.ending r.isOk))
    return r

def run {α : Type} (u : ConnectionUse) (answers : Answers) (body : Action α) : Action α := do
  call [.connect u.path]
  match answers.refusal (.connect u.path) with
  | some e => throw (.database e.name)
  | none => u.runOpen answers body

end ConnectionUse

end Cohort
