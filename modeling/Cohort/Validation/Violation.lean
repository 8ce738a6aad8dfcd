import Cohort.Catalog.Basic
import Cohort.Expression.Basic
import Cohort.Validation.Admission

/-!
# Violations

What is wrong with the conditions of an expression, held against a catalog: a
field that is not registered, an operator that the field does not permit, a
value that it does not take.  Violations come in the order of the conditions.
-/

namespace Cohort

inductive Defect where
  | unknownField
  | operatorNotPermitted (allowed : List String)
  | invalidValue (expected : Shape)
  deriving DecidableEq

namespace Defect

def code : Defect → String
  | unknownField => "unknown_field"
  | operatorNotPermitted _ => "operator_not_permitted"
  | invalidValue _ => "invalid_value"

def message (c : Condition) : Defect → Except Misuse String
  | unknownField => return "unknown field: " ++ (← c.field.display)
  | operatorNotPermitted allowed =>
    return "operator not permitted for field " ++ (← c.field.display) ++ ": "
      ++ (← c.operator.literal) ++ " (allowed: " ++ ", ".intercalate allowed ++ ")"
  | invalidValue expected =>
    return "invalid value for field " ++ (← c.field.display) ++ ": expected " ++ expected.id
      ++ ", got " ++ (← c.value.literal)

end Defect

/-- A defect of a condition with what is said about it. -/
structure Complaint where
  defect : Defect
  message : String

structure Violation where
  defect : Defect
  condition : Condition
  path : Path
  message : String

namespace Violation

def code (v : Violation) : String := v.defect.code

end Violation

namespace Catalog

def complaint (c : Condition) (d : Defect) : Except Misuse Complaint := return ⟨d, ← d.message c⟩

def operatorDefects (f : Field) (c : Condition) : List Defect :=
  if f.permits c.operator then [] else [.operatorNotPermitted f.operatorIds]

def valueDefects (f : Field) (c : Condition) : Except Misuse (List Defect) := do
  let expected ← f.expected c.operator
  return if ← expected.admits f c.value then [] else [.invalidValue expected]

/-- What is wrong with a condition.  The defect of the operator is put into words before the value
is looked at. -/
def complaints (cat : Catalog) (c : Condition) : Except Misuse (List Complaint) :=
  match cat.find? c.field with
  | none => [Defect.unknownField].mapM (complaint c)
  | some f => do
    let ofOperator ← (operatorDefects f c).mapM (complaint c)
    let ofValue ← (← valueDefects f c).mapM (complaint c)
    return ofOperator ++ ofValue

def violationsAt (cat : Catalog) (e : Path × Condition) : Except Misuse (List Violation) :=
  (cat.complaints e.2).map (List.map fun x => ⟨x.defect, e.2, e.1, x.message⟩)

def violationsOf (c : Catalog) : List (Path × Condition) → Except Misuse (List Violation)
  | [] => .ok []
  | e :: es => do
    let vs ← c.violationsAt e
    return vs ++ (← c.violationsOf es)

/-- The violations of an expression; it is valid if there are none. -/
def validate (c : Catalog) (e : Expression) : Except Misuse (List Violation) :=
  c.violationsOf e.conditions

end Catalog

end Cohort
