import Cohort.Catalog.Basic
import Cohort.Expression.Basic
import Cohort.Json.Decode

/-!
# Stored expressions

The form in which trees are stored: a map for each node, told apart by its
`kind`.  `Node.toValue` writes it, and `Expression.ofValue?` reads it back,
with the long names of earlier versions accepted beside the short ones.  The
reader stops at the first defect in the order of the tree.
-/

namespace Cohort

namespace Node

def negatedEntry (negated : Bool) : Entries :=
  if negated then [(.text "not", .bool true)] else []

mutual

def toValue : Node → Value
  | condition c =>
    .map ([(.text "kind", .text "condition"), (.text "category", c.category),
      (.text "field", c.field), (.text "op", c.operator), (.text "value", c.value)]
      ++ negatedEntry c.negated)
  | group op cs negated =>
    .map ([(.text "kind", .text "group"), (.text "op", .text op.word),
      (.text "children", .list (toValues cs))] ++ negatedEntry negated)

def toValues : List Node → List Value
  | [] => []
  | n :: ns => n.toValue :: toValues ns

end

end Node

/-- Why a stored expression cannot be read. -/
inductive Malformed where
  | notMap (v : Value)
  | unknownKind (kind : Value)
  | tooDeep (limit : Int)
  | unknownConnective (raw : Value)
  | childrenNotList
  | fieldNotText
  | operatorNotText (field : String)
  | rootNotGroup
  | notJson (cause : Json.Cause) (text : String) (left : Nat)
  /-- A whole number in the text has more digits than are read. -/
  | numberTooLong

namespace Malformed

def message : Malformed → Except Misuse String
  | notMap v => return "Expected dict, got " ++ v.kindName
  | unknownKind kind => return "Unknown node kind: " ++ (← kind.literal)
  | tooDeep limit =>
    return "Expression nesting exceeds maximum depth of " ++ (← Decimal.Layout.integer limit)
  | unknownConnective raw => return "Unknown connective: " ++ (← raw.literal)
  | childrenNotList => return "Group children must be a list"
  | fieldNotText => return "Condition field must be a string"
  | operatorNotText field => return "Condition operator for " ++ field ++ " must be a string"
  | rootNotGroup => return "Expression root must be a group"
  | notJson cause text left => return "Expression is not valid JSON: " ++ cause.locate text left
  | numberTooLong => .error .value

end Malformed

/-- How stored expressions are read. -/
structure Reading where
  /-- The nesting of groups that is accepted; the root is at depth one. -/
  maxDepth : Int := 10
  /-- Fills the categories that are missing. -/
  catalog : Option Catalog := none

namespace Entries

def getEither? (es : Entries) (name other : String) : Option Value :=
  (es.get? name).orElse fun _ => es.get? other

def isNegated (es : Entries) : Bool := ((es.getEither? "not" "negated").getD (.bool false)).truthy

theorem sizeOf_of_get? {es : Entries} {key : String} {v : Value} (h : es.get? key = some v) :
    sizeOf v < sizeOf es := by
  induction es with
  | nil => simp at h
  | cons e rest ih =>
    obtain ⟨k, w⟩ := e
    rw [get?] at h
    split at h
    · simp only [Option.some.injEq] at h
      subst h
      simp
      omega
    · have := ih h
      simp
      omega

end Entries

namespace Reading

/-- The category of a condition: the stored one, or that of the field. -/
def category (r : Reading) (stored : Value) (field : String) : Value :=
  if stored.truthy then stored
  else match r.catalog.bind (·.find? (.text field)) with
    | some f => .text f.category.id
    | none => .text ""

def readCondition (r : Reading) (es : Entries) : Except Malformed Condition := do
  let .text field := es.get "field" | throw .fieldNotText
  let .text operator := (es.getEither? "op" "operator").getD .null | throw (.operatorNotText field)
  return {
    field := .text field
    operator := .text operator
    value := es.get "value"
    category := r.category (es.get "category") field
    negated := es.isNegated
  }

def readConnective (es : Entries) : Except Malformed Connective :=
  let raw := (es.getEither? "op" "connective").getD (.text "AND")
  match Connective.ofValue? raw with
  | some op => .ok op
  | none => .error (.unknownConnective raw)

mutual

/-- Reads a node; a group among its children would be at `depth`. -/
def readNode (r : Reading) (depth : Nat) : Value → Except Malformed Node
  | .map es =>
    match Entries.get es "kind" with
    | .text "group" =>
      if r.maxDepth < depth then .error (.tooDeep r.maxDepth)
      else match readConnective es with
        | .error e => .error e
        | .ok op =>
          match h : Entries.get? es "children" with
          | none => .ok (.group op [] (Entries.isNegated es))
          | some (.list items) =>
            (readNodes r (depth + 1) items).map fun children =>
              .group op children (Entries.isNegated es)
          | some _ => .error .childrenNotList
    | .text "condition" => (r.readCondition es).map .condition
    | kind => .error (.unknownKind kind)
  | v => .error (.notMap v)
termination_by v => sizeOf v
decreasing_by
  have := Entries.sizeOf_of_get? h
  simp at this ⊢
  omega

def readNodes (r : Reading) (depth : Nat) : List Value → Except Malformed (List Node)
  | [] => .ok []
  | v :: vs =>
    match readNode r depth v with
    | .error e => .error e
    | .ok n => (readNodes r depth vs).map (n :: ·)
termination_by vs => sizeOf vs

end

/-- Reads an expression; null and the empty map are the empty group. -/
def read (r : Reading) : Value → Except Malformed Expression
  | .null => .ok {}
  | .map [] => .ok {}
  | v =>
    match readNode r 1 v with
    | .error e => .error e
    | .ok n =>
      match Expression.ofNode? n with
      | some e => .ok e
      | none => .error .rootNotGroup

def readText (r : Reading) (text : String) : Except Malformed Expression :=
  match Json.decode text with
  | .ok v => r.read v
  | .error (.malformed cause left) => .error (.notJson cause text left)
  | .error .tooManyDigits => .error .numberTooLong

end Reading

namespace Expression

def toValue (e : Expression) : Value := e.toNode.toValue

end Expression

end Cohort
