import Cohort.Value.Members
import Cohort.Yaml.Meaning.Interpreter
import Cohort.Yaml.Node.Assembly

/-!
# Interpretations

A document with the meanings of its nodes.  `Interpretation.value` is the value of
a node; a collection inside of itself is a loop in its value.
-/

namespace Cohort.Yaml

/-- The meanings of the nodes of a document. -/
structure Interpretation where
  meanings : Array Meaning
  root : NodeId

namespace Interpretation

/-- Gives the nodes of a graph their meanings, as far as they can be reached from a node. -/
def ofGraph (g : Graph) (root : NodeId) : Except Fault Interpretation := do
  let steps : Interpreter Unit := do
    Interpreter.interpret root
    Interpreter.readWaiting g.size
  let (_, s) ← steps.run { graph := g, meanings := Array.replicate g.size none }
  return ⟨s.meanings.map (·.getD (.plain .null)), root⟩

def meaning (i : Interpretation) (n : NodeId) : Meaning := (i.meanings[n]?).getD (.plain .null)

/-- The value of a node inside of the collections on the path to it.  A path has no node twice, so
`fuel` above the number of nodes is enough. -/
def valueOn (i : Interpretation) (fuel : Nat) (path : List NodeId) (n : NodeId) : Value :=
  match fuel with
  | 0 => .null
  | fuel + 1 =>
    let part := i.valueOn fuel (n :: path)
    let isInside := path.contains n
    match i.meaning n with
    | .plain v => v
    | .set xs => .ofMembers xs
    | .list ns => if isInside then .loop false else .list (ns.map part)
    | .pairs ps =>
      if isInside then .loop false else .list (ps.map fun p => .tuple [part p.1, part p.2])
    | .map es => if isInside then .loop true else .map (es.map fun e => (e.1, part e.2))

def value (i : Interpretation) (n : NodeId) : Value := i.valueOn (i.meanings.size + 1) [] n

/-- The document that a text holds, if it holds one, with the meanings of its nodes. -/
def ofText? (text : String) : Except Fault (Option Interpretation) := do
  match ← Document.ofScan? (Scan.ofText text) with
  | some d => some <$> ofGraph d.graph d.root
  | none => return none

end Interpretation

/-- The value of a text that holds at most one document; an empty text is null. -/
def decode (text : String) : Except Fault Value :=
  (Interpretation.ofText? text).map fun i => (i.map fun i => i.value i.root).getD .null

end Cohort.Yaml
