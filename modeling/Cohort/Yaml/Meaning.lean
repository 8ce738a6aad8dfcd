import Cohort.Value.Basic
import Cohort.Yaml.Node

/-!
# Meanings

What a node stands for: a value without parts, or a collection of what other
nodes stand for.  The keys of a map have no parts, so they are values.
-/

namespace Cohort.Yaml

/-- What a node stands for. -/
inductive Meaning where
  | plain (v : Value)
  | list (items : List NodeId)
  /-- A list of tuples of two items. -/
  | pairs (ps : List (NodeId × NodeId))
  | map (entries : List (Value × NodeId))
  | set (members : List Value)

namespace Meaning

def truthy : Meaning → Bool
  | plain v => v.truthy
  | list xs => !xs.isEmpty
  | pairs ps => !ps.isEmpty
  | map es => !es.isEmpty
  | set xs => !xs.isEmpty

/-- The value that can be a key: one without parts. -/
def key? : Meaning → Option Value
  | plain v => some v
  | _ => none

/-- Whether a value is a floating-point number that is none. -/
def isNoNumber : Value → Bool
  | .float x => x.isNaN
  | _ => false

/-- Whether two keys of a mapping are the same; what is no number is one key. -/
def sameKey (k l : Value) : Bool := k.sameKey l || (isNoNumber k && isNoNumber l)

/-- Writes a node under a key: a present key keeps its place, a new one goes to the end. -/
def put (key : Value) (n : NodeId) : List (Value × NodeId) → List (Value × NodeId)
  | [] => [(key, n)]
  | (k, m) :: es => if sameKey k key then (k, n) :: es else (k, m) :: put key n es

end Meaning

end Cohort.Yaml
