import Cohort.Yaml.Meaning
import Cohort.Yaml.Tag.Reading

/-!
# Giving meanings

The tag of a node decides what kind of value it stands for.  The parts of a
collection are looked at later than the collection itself, level by level from the
outermost node on, so that a collection may be a part of itself.  Before the entries
of a mapping are read, it takes over those of the mappings under its merge keys.
-/

namespace Cohort.Yaml

/-- The graph in which the default keys among some entries are plain texts. -/
def Graph.plainKeys (g : Graph) (entries : List (NodeId × NodeId)) : Graph :=
  entries.foldl (fun g e => if g.tag e.1 = .default then g.setTag e.1 .text else g) g

/-- What is known while nodes are given their meanings. -/
structure Progression where
  graph : Graph
  meanings : Array (Option Meaning)
  /-- The collections whose parts are still to be looked at, the latest first. -/
  waiting : List NodeId := []

abbrev Interpreter (α : Type) := StateT Progression (Except Fault) α

namespace Interpreter

def fail {α : Type} : Interpreter α := throw .malformed

/-- The text of a node that has the tag of a scalar.  A mapping has the text of what stands under
its default key. -/
def scalarText (g : Graph) : Nat → NodeId → Except Fault (List Char)
  | 0, _ => .error (.unfit .depth)
  | fuel + 1, n =>
    match g.content n with
    | .scalar text => .ok text
    | .sequence _ => .error .malformed
    | .mapping entries =>
      match entries.find? fun e => g.tag e.1 = .default with
      | some e => scalarText g fuel e.2
      | none => .error .malformed

/-- The value of a node that has the tag of a scalar.  A stamp is read off the node itself, which
has to be a scalar. -/
def scalarValue (g : Graph) (n : NodeId) (tag : Tag) : Except Fault Value := do
  let text ← scalarText g (g.size + 1) n
  match tag, g.content n with
  | .stamp, .mapping _ => throw (.unfit .kind)
  | _, _ => tag.read text

def setMeaning (n : NodeId) (m : Meaning) : Interpreter Unit :=
  modify fun s => { s with meanings := s.meanings.setIfInBounds n (some m) }

/-- Gives a collection its kind and leaves its parts for later. -/
def defer (n : NodeId) (m : Meaning) : Interpreter Unit := do
  setMeaning n m
  modify fun s => { s with waiting := n :: s.waiting }

def meaning? (n : NodeId) : Interpreter (Option Meaning) := return (← get).meanings[n]?.join

/-- Gives a node its meaning, unless it has one. -/
def interpret (n : NodeId) : Interpreter Unit := do
  if (← meaning? n).isSome then return
  let g := (← get).graph
  match g.tag n with
  | .sequence => defer n (.list [])
  | .pairs => defer n (.pairs [])
  | .mapping => defer n (.map [])
  | .set => defer n (.set [])
  | .merge | .default | .other => fail
  | tag => setMeaning n (.plain (← scalarValue g n tag))

def setEntries (n : NodeId) (entries : List (NodeId × NodeId)) : Interpreter Unit :=
  modify fun s => { s with graph := s.graph.setContent n (.mapping entries) }

def entriesOf (n : NodeId) : Interpreter (List (NodeId × NodeId)) := do
  match (← get).graph.content n with
  | .mapping entries => return entries
  | _ => fail

/-- The entries of a mapping with those that it takes over in front of its own; `taken` are those
from the merge keys before.  Each step removes a merge key from the graph, so `fuel` above the
number of entries is enough. -/
def flatten (fuel : Nat) (taken : List (NodeId × NodeId)) (n : NodeId) :
    Interpreter (List (NodeId × NodeId)) := do
  match fuel with
  | 0 => fail
  | fuel + 1 =>
    let entries ← entriesOf n
    let g := (← get).graph
    match entries.findIdx? fun e => g.tag e.1 = .merge with
    | some i =>
      setEntries n (entries.eraseIdx i)
      let source := (entries[i]?.map (·.2)).getD n
      let more ← match g.content source with
        | .scalar _ => fail
        | .mapping _ => flatten fuel [] source
        | .sequence items => do
          -- Of several mappings the first one is the strongest, so its entries come last.
          let parts ← items.mapM (flatten fuel [])
          pure parts.reverse.flatten
      flatten fuel (taken ++ more) n
    | none =>
      modify fun s => { s with graph := s.graph.plainKeys entries }
      setEntries n (taken ++ entries)
      return taken ++ entries

/-- Reads the entries of a mapping, in order; later ones replace earlier ones of the same key. -/
def readMapping (n : NodeId) : Interpreter (List (Value × NodeId)) := do
  let entries ← flatten ((← get).graph.entryCount + 1) [] n
  entries.foldlM (fun es e => do
    interpret e.1
    match (← meaning? e.1).bind Meaning.key? with
    | none => fail
    | some key =>
      interpret e.2
      return Meaning.put key e.2 es) []

/-- Reads an item of pairs: a mapping of one entry. -/
def readPair (n : NodeId) : Interpreter (NodeId × NodeId) := do
  match ← entriesOf n with
  | [e] =>
    interpret e.1
    interpret e.2
    return e
  | _ => fail

/-- Looks at the parts of a collection, which has to be written as its tag says. -/
def readParts (n : NodeId) : Interpreter Unit := do
  let g := (← get).graph
  match g.tag n, g.content n with
  | .sequence, .sequence items =>
    items.forM interpret
    setMeaning n (.list items)
  | .pairs, .sequence items => setMeaning n (.pairs (← items.mapM readPair))
  | .mapping, .mapping _ => setMeaning n (.map (← readMapping n))
  | .set, .mapping _ => setMeaning n (.set ((← readMapping n).map (·.1)))
  | _, _ => fail

/-- Looks at the parts of the waiting collections, and then at those that wait because of that.
Every collection waits once, so `fuel` at the number of nodes is enough. -/
def readWaiting : Nat → Interpreter Unit
  | 0 => pure ()
  | fuel + 1 => do
    let waiting := (← get).waiting
    if waiting.isEmpty then return
    modify ({ · with waiting := [] })
    waiting.reverse.forM readParts
    readWaiting fuel

end Interpreter

end Cohort.Yaml
