import Cohort.Misuse
import Cohort.Value.Basic

/-!
# Operators

The tests that a condition can name, with the identifiers under which they are
stored.
-/

namespace Cohort

inductive Operator where
  | eq | neq | gt | gte | lt | lte
  | between
  | isIn | notIn
  | contains | containsAnyCase | startsWith | endsWith
  | present | absent
  | matchText | matchAny
  | withinRadius
  | isTrue | isFalse
  deriving DecidableEq, Repr

namespace Operator

def id : Operator → String
  | eq => "eq"
  | neq => "neq"
  | gt => "gt"
  | gte => "gte"
  | lt => "lt"
  | lte => "lte"
  | between => "between"
  | isIn => "in"
  | notIn => "nin"
  | contains => "contains"
  | containsAnyCase => "icontains"
  | startsWith => "starts_with"
  | endsWith => "ends_with"
  | present => "exists"
  | absent => "notExists"
  | matchText => "match"
  | matchAny => "matchAny"
  | withinRadius => "withinRadius"
  | isTrue => "isTrue"
  | isFalse => "isFalse"

def all : List Operator :=
  [eq, neq, gt, gte, lt, lte, between, isIn, notIn, contains, containsAnyCase, startsWith, endsWith,
   present, absent, matchText, matchAny, withinRadius, isTrue, isFalse]

theorem mem_all (op : Operator) : op ∈ all := by cases op <;> decide

def ofId? (s : String) : Option Operator := all.find? (·.id == s)

def ofValue? (v : Value) : Option Operator := v.text?.bind ofId?

/-- Whether a value is an identifier; only a value that may be a key, or a set of such values, can
be asked about. -/
def known : Value → Except Misuse Bool
  | .set _ => .ok false
  | v => if v.isKey then .ok (ofValue? v).isSome else .error .kind

@[simp] theorem ofId?_id (op : Operator) : ofId? op.id = some op := by cases op <;> decide

def isScalar : Operator → Bool
  | eq | neq | gt | gte | lt | lte => true
  | _ => false

end Operator

end Cohort
