import Cohort.Expression.Edit

/-!
# New nodes

The nodes that an editor starts from: a condition on a field with its first
operator and a default value, and a group without children.
-/

namespace Cohort

/-- Why there is no new condition. -/
inductive NewConditionFault where
  | emptyCatalog
  | unknownField (key : Value)
  | misuse (m : Misuse)

namespace NewConditionFault

def message : NewConditionFault → Except Misuse String
  | emptyCatalog => return "Field registry is empty"
  | unknownField key => return "Unknown field: " ++ (← key.display)
  | misuse m => .error m

/-- What is at the front of a list, which is taken not to be empty. -/
def front {α : Type} : List α → Except NewConditionFault α
  | x :: _ => .ok x
  | [] => .error (.misuse .index)

end NewConditionFault

open NewConditionFault (front)

namespace Field

def newCondition (f : Field) : Except NewConditionFault Condition := do
  let operator ← front f.operatorIds
  return {
    field := f.key
    operator := .text operator
    value := f.defaultValue
    category := .text f.category.id
  }

end Field

namespace Catalog

/-- The field that a new condition is on: the one with a key, or the first one of the first
category. -/
def startingField (c : Catalog) : Value → Except NewConditionFault Field
  | .null =>
    match c.categories with
    | category :: _ => front (c.inCategory category)
    | [] => .error .emptyCatalog
  | key =>
    match c.find? key with
    | some f => .ok f
    | none => .error (.unknownField key)

/-- A new condition on the field with a key, or on the first field of the first category. -/
def newCondition (c : Catalog) (key : Value) : Except NewConditionFault Condition := do
  (← c.startingField key).newCondition

end Catalog

def newGroup (raw : Value) : Except EditFault Node :=
  match Connective.ofValue? raw with
  | some op => .ok (.group op [] false)
  | none => .error (.unknownConnective raw)

end Cohort
