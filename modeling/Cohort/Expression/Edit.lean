import Cohort.Catalog.Basic
import Cohort.Expression.Stored

/-!
# Edits

Edits change one place of a tree, named by its path, and rebuild the groups
above it.  `Node.at?` walks to a node; `Node.modify` puts the result of a
change in the place of a node, or nothing at all, and all edits but the one
that looks are built from it.
-/

namespace Cohort

/-- Why a path or an edit is refused.  The paths are parts of the path that was given: `taken`
says how many of its steps were to be walked. -/
inductive EditFault where
  | intoCondition (taken depth : Nat)
  | noChild (taken depth : Nat)
  | noNode
  | notGroup
  | notCondition
  | rootNotGroup
  | removeRoot
  | indexOutOfRange
  | unknownName (name : String)
  | unknownConnective (raw : Value)
  deriving Inhabited

namespace EditFault

/-- The message of a fault, with the path and the index as they were written.  A fault whose message
cannot be written is met as the misuse of writing it. -/
def message (path : List Value) (index : Value) : EditFault → Except Misuse String
  | intoCondition taken depth =>
    return "Path " ++ (← (Value.tuple (path.take taken)).literal)
      ++ " descends into a condition at depth " ++ Decimal.Layout.digits depth
  | noChild taken depth =>
    return "Path " ++ (← (Value.tuple (path.take taken)).literal) ++ " has no child "
      ++ (← (path.getD depth .null).display) ++ " at depth " ++ Decimal.Layout.digits depth
  | noNode => return "No node at path " ++ (← (Value.tuple path).literal)
  | notGroup => return "Node at " ++ (← (Value.tuple path).literal) ++ " is not a group"
  | notCondition => return "Node at " ++ (← (Value.tuple path).literal) ++ " is not a condition"
  | rootNotGroup => return "The root must remain a group"
  | removeRoot => return "Cannot remove the root group"
  | indexOutOfRange => return "Insert index " ++ (← index.display) ++ " out of range"
  | unknownName name =>
    return "Invalid condition update: Condition.__init__() got "
      ++ (if name = "self" then "multiple values for argument '"
        else "an unexpected keyword argument '")
      ++ name ++ "'"
  | unknownConnective raw => return "Unknown connective: " ++ (← raw.literal)

end EditFault

namespace Node

def child? (children : List Node) (i : Int) : Option Node :=
  if 0 ≤ i then children[i.toNat]? else none

def walk (taken depth : Nat) : Node → Path → Except EditFault Node
  | n, [] => .ok n
  | condition _, _ :: _ => .error (.intoCondition taken depth)
  | group _ cs _, i :: p =>
    match child? cs i with
    | some n => walk taken (depth + 1) n p
    | none => .error (.noChild taken depth)

def at? (root : Node) (p : Path) : Except EditFault Node := walk p.length 0 root p

/-- A change of a node: the node in its place, or none to remove it. -/
abbrev Change := Node → Except EditFault (Option Node)

def place (children : List Node) (i : Int) : Option Node → List Node
  | some n => children.set i.toNat n
  | none => children.eraseIdx i.toNat

/-- Changes the node that the steps `i :: p` lead to and rebuilds the groups on the way. -/
def modify (f : Change) (taken depth : Nat) : Node → Int → Path → Except EditFault Node
  | condition _, _, [] => .error .noNode
  | condition _, _, _ :: _ => .error (.intoCondition taken depth)
  | group op cs negated, i, [] =>
    match child? cs i with
    | none => .error .noNode
    | some n => (f n).map fun r => group op (place cs i r) negated
  | group op cs negated, i, j :: p =>
    match child? cs i with
    | none => .error (.noChild taken depth)
    | some n =>
      (modify f taken (depth + 1) n j p).map fun n' => group op (place cs i (some n')) negated

end Node

/-- The changes of a condition: a value for some of its parts. -/
structure ConditionChange where
  field : Option Value := none
  operator : Option Value := none
  value : Option Value := none
  category : Option Value := none
  negated : Option Bool := none

namespace ConditionChange

def apply (ch : ConditionChange) (c : Condition) : Condition where
  field := ch.field.getD c.field
  operator := ch.operator.getD c.operator
  value := ch.value.getD c.value
  category := ch.category.getD c.category
  negated := ch.negated.getD c.negated

def set (ch : ConditionChange) (name : String) (v : Value) : Except EditFault ConditionChange :=
  match name with
  | "field" => .ok { ch with field := some v }
  | "operator" => .ok { ch with operator := some v }
  | "value" => .ok { ch with value := some v }
  | "category" => .ok { ch with category := some v }
  | "negated" => .ok { ch with negated := some v.truthy }
  | _ => .error (.unknownName name)

def ofNamed (parts : List (String × Value)) : Except EditFault ConditionChange :=
  parts.foldlM (fun ch p => ch.set p.1 p.2) {}

end ConditionChange

namespace Expression

open Node

def at? (e : Expression) (p : Path) : Except EditFault Node := e.toNode.at? p

/-- Changes the node at a path; the root has to stay a group. -/
def edit (e : Expression) (p : Path) (f : Change) : Except EditFault Expression :=
  let result := match p with
    | [] => f e.toNode
    | i :: p => (modify f p.length 0 e.toNode i p).map some
  match result with
  | .error fault => .error fault
  | .ok r =>
    match r.bind ofNode? with
    | some e => .ok e
    | none => .error .rootNotGroup

def replace (e : Expression) (p : Path) (n : Node) : Except EditFault Expression :=
  e.edit p fun _ => .ok (some n)

def remove (e : Expression) (p : Path) : Except EditFault Expression :=
  if p.isEmpty then .error .removeRoot else e.edit p fun _ => .ok none

/-- The children with a node inserted before the one with an index, or behind them all. -/
def insertChild (children : List Node) (n : Node) : Option Int → Except EditFault (List Node)
  | none => .ok (children ++ [n])
  | some i =>
    if 0 ≤ i ∧ i ≤ children.length then .ok (children.insertIdx i.toNat n)
    else .error .indexOutOfRange

def insert (e : Expression) (p : Path) (n : Node) (index : Option Int := none) :
    Except EditFault Expression :=
  e.edit p fun
    | .group op cs negated => (insertChild cs n index).map fun cs => some (.group op cs negated)
    | .condition _ => .error .notGroup

def update (e : Expression) (p : Path) (changes : Except EditFault ConditionChange) :
    Except EditFault Expression :=
  e.edit p fun
    | .condition c => changes.map fun ch => some (.condition (ch.apply c))
    | .group .. => .error .notCondition

def toggle (e : Expression) (p : Path) : Except EditFault Expression :=
  e.edit p fun
    | .condition c => .ok (some (.condition { c with negated := !c.negated }))
    | .group op cs negated => .ok (some (.group op cs !negated))

def setConnective (e : Expression) (p : Path) (raw : Value) : Except EditFault Expression :=
  match Connective.ofValue? raw with
  | none => .error (.unknownConnective raw)
  | some op => e.edit p fun
    | .group _ cs negated => .ok (some (.group op cs negated))
    | .condition _ => .error .notGroup

end Expression

end Cohort
