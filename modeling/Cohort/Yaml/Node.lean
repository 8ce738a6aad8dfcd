import Cohort.Yaml.Tag

/-!
# Nodes

A document is a graph of nodes.  A node has a tag and is a scalar, a sequence or
a mapping; the parts of a collection are given by the places of their nodes in the
graph, so that a node may stand at several places and even inside of itself.
-/

namespace Cohort.Yaml

abbrev NodeId := Nat

/-- What is written in a node. -/
inductive Content where
  | scalar (text : List Char)
  | sequence (items : List NodeId)
  | mapping (entries : List (NodeId × NodeId))
  deriving DecidableEq, Repr

structure Node where
  tag : Tag
  content : Content
  deriving DecidableEq, Repr

def Node.empty : Node := ⟨.null, .scalar []⟩

abbrev Graph := Array Node

namespace Graph

def tag (g : Graph) (n : NodeId) : Tag := (g[n]?.map Node.tag).getD .null

def content (g : Graph) (n : NodeId) : Content := (g[n]?.map Node.content).getD (.scalar [])

def setTag (g : Graph) (n : NodeId) (tag : Tag) : Graph := g.modify n ({ · with tag })

def setContent (g : Graph) (n : NodeId) (content : Content) : Graph :=
  g.modify n ({ · with content })

def entryCount (g : Graph) : Nat :=
  g.foldl (fun count n => match n.content with
    | .mapping entries => count + entries.length
    | _ => count) 0

end Graph

end Cohort.Yaml
