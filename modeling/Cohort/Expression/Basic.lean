import Cohort.Text.Case
import Cohort.Value.Text

/-!
# Expressions

An expression is a tree of groups whose leaves are conditions.  A group joins
its children with AND or OR, a condition tests one field, and both can be
negated.  The root is always a group; the empty group matches everyone.

Nothing is known here of the fields there are: the field, the operator and the
value of a condition are kept as they were stored.
-/

namespace Cohort

inductive Connective where
  | and
  | or
  deriving DecidableEq, Repr

namespace Connective

def word : Connective → String
  | and => "AND"
  | or => "OR"

/-- The connective that a word names, in any case. -/
def ofText? (s : String) : Option Connective :=
  let s := Text.upperAscii s
  if s = "AND" then some and else if s = "OR" then some or else none

def ofValue? (v : Value) : Option Connective := v.text?.bind ofText?

@[simp] theorem ofText?_word (c : Connective) : ofText? c.word = some c := by
  cases c <;> decide

end Connective

structure Condition where
  field : Value
  operator : Value
  value : Value := .null
  category : Value := .text ""
  negated : Bool := false
  deriving Inhabited

/-- A condition that a compiler leaves out, the reason, and the warning about it. -/
structure Omission (Reason : Type) where
  condition : Condition
  reason : Reason
  warning : String

inductive Node where
  | condition (c : Condition)
  | group (connective : Connective) (children : List Node) (negated : Bool)
  deriving Inhabited

/-- The root group of a tree. -/
structure Expression where
  connective : Connective := .and
  children : List Node := []
  negated : Bool := false
  deriving Inhabited

/-- The way from the root to a node: the index of a child at each step. -/
abbrev Path := List Int

namespace Node

def isGroup : Node → Bool
  | group .. => true
  | condition _ => false

def negated : Node → Bool
  | condition c => c.negated
  | group _ _ n => n

mutual

def conditions : Node → List (Path × Condition)
  | condition c => [([], c)]
  | group _ cs _ => conditionsFrom 0 cs

/-- The conditions below children whose indices start at `i`. -/
def conditionsFrom (i : Nat) : List Node → List (Path × Condition)
  | [] => []
  | n :: ns => n.conditions.map (fun e => ((i : Int) :: e.1, e.2)) ++ conditionsFrom (i + 1) ns

end

mutual

def depth : Node → Nat
  | condition _ => 0
  | group _ cs _ => depthList cs + 1

def depthList : List Node → Nat
  | [] => 0
  | n :: ns => max n.depth (depthList ns)

end

end Node

namespace Expression

def toNode (e : Expression) : Node := .group e.connective e.children e.negated

def ofNode? : Node → Option Expression
  | .group c cs n => some ⟨c, cs, n⟩
  | .condition _ => none

@[simp] theorem ofNode?_toNode (e : Expression) : ofNode? e.toNode = some e := rfl

def isEmpty (e : Expression) : Bool := e.children.isEmpty

def conditions (e : Expression) : List (Path × Condition) := e.toNode.conditions

end Expression

end Cohort
