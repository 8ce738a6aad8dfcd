import Cohort.Filters.Envelope
import Cohort.Validation.Violation

/-!
# Failures

Why a request of the service fails.
-/

namespace Cohort

inductive Failure where
  | malformed (e : Malformed)
  | unknownMode (raw : Value)
  | slotStyle (raw : Value)
  | noStore
  | unknownColumns (names : List Value)
  | query (what reason : String)
  | rejected (violations : List Violation)
  | misuse (m : Misuse)
  /-- The database refuses for a reason that is not about the query; it goes on under its name. -/
  | database (name : String)

namespace Failure

def spelledOut : Nat := 5

def summary (vs : List Violation) : String :=
  "; ".intercalate ((vs.take spelledOut).map Violation.message) ++
    if spelledOut < vs.length then
      " (+" ++ Decimal.Layout.digits (vs.length - spelledOut) ++ " more)"
    else ""

/-- The message of a failure; misuse has none. -/
def message : Failure → Except Misuse String
  | malformed e => e.message
  | unknownMode raw => return "Unknown filter mode: " ++ (← raw.literal)
  | slotStyle raw =>
    return "paramstyle must be one of ('qmark', 'numeric'), got " ++ (← raw.literal)
  | noStore => return "No preview database configured (set db_path or AUDIENCE_DB_PATH)"
  | unknownColumns names => return "Unknown contact columns: " ++ (← (Value.list names).literal)
  | query what reason => return what ++ " query failed: " ++ reason
  | rejected vs => return "Invalid audience expression: " ++ summary vs
  | misuse m => .error m
  | database name => return name

/-- What a failure is met as: itself, or the misuse of writing its message where that cannot be
written. -/
def met (f : Failure) : Failure :=
  match f.message with
  | .ok _ => f
  | .error m => misuse m

def ofMalformed (e : Malformed) : Failure := (malformed e).met

def ofEnvelope : EnvelopeFault → Failure
  | .unknownMode raw => (unknownMode raw).met
  | .expression e => ofMalformed e
  | .misuse m => misuse m

end Failure

end Cohort
