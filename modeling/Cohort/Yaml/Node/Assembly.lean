import Cohort.Yaml.Node
import Cohort.Yaml.Token.Lexer

/-!
# Putting nodes together

`Document.ofScan?` puts the tokens of one document together to a graph.  The
nodes are numbered in the order in which they start; a reference stands for the node
that has its anchor, which may be a collection that is still open.
-/

namespace Cohort.Yaml

/-- The graph of a document and its outermost node. -/
structure Document where
  graph : Graph
  root : NodeId

/-- What is known where a node is read. -/
structure Context where
  /-- The tokens to come, and the fault behind them. -/
  scan : Scan
  graph : Graph := #[]
  anchors : List (String × NodeId) := []
  /-- What the handles of tags stand for. -/
  handles : List (String × String) := []
  /-- How many collections are open. -/
  depth : Nat := 0

abbrev Assembly (α : Type) := StateT Context (Except Fault) α

def plainHandles : List (String × String) := [("!", "!"), ("!!", Tag.space)]

/-- No more collections than this are open at a time. -/
def maxDepth : Nat := 488

namespace Assembly

def fail {α : Type} : Assembly α := throw .malformed

/-- The next token, if there is one; where a fault ends the tokens, it is met here. -/
def peek? : Assembly (Option Token) := do
  let scan := (← get).scan
  match scan.tokens, scan.fault with
  | t :: _, _ => return some t
  | [], none => return none
  | [], some f => throw f

def advance : Assembly Unit :=
  modify fun c => { c with scan := { c.scan with tokens := c.scan.tokens.drop 1 } }

def next (ts : List Token) : Assembly Bool := return (← peek?).any ts.contains

/-- Passes over a token if it is next. -/
def take (t : Token) : Assembly Bool := do
  let found ← next [t]
  if found then advance
  return found

def add (n : Node) : Assembly NodeId := do
  let id := (← get).graph.size
  modify fun c => { c with graph := c.graph.push n }
  return id

def anchored (name : String) : Assembly NodeId := do
  match (← get).anchors.lookup name with
  | some n => return n
  | none => fail

/-- Gives a node an anchor, if there is one for it. -/
def anchor (name : Option String) (n : NodeId) : Assembly Unit :=
  modify fun c => { c with anchors := (name.map (·, n)).toList ++ c.anchors }

/-- A scalar with the tag that it is given; one without a tag that is not plain is a text. -/
def scalar (name : Option String) (tag : Option Tag) (plain : Bool) (text : List Char) :
    Assembly NodeId := do
  let n ← add ⟨tag.getD (if plain then .ofPlain text else .text), .scalar text⟩
  anchor name n
  return n

def collection (name : Option String) (tag : Tag) (body : Assembly Content) : Assembly NodeId := do
  let n ← add ⟨tag, .sequence []⟩
  anchor name n
  if maxDepth ≤ (← get).depth then throw (.unfit .depth)
  modify fun c => { c with depth := c.depth + 1 }
  let content ← body
  modify fun c => { c with graph := c.graph.setContent n content, depth := c.depth - 1 }
  return n

def tagText (handle : Option String) (rest : String) : Assembly String := do
  match handle with
  | none => return rest
  | some h =>
    match (← get).handles.lookup h with
    | some expansion => return expansion ++ rest
    | none => fail

def properties : Assembly (Option String × Option String) := do
  match ← peek? with
  | some (.anchor name) =>
    advance
    match ← peek? with
    | some (.tag h rest) =>
      advance
      return (some name, some (← tagText h rest))
    | _ => return (some name, none)
  | some (.tag h rest) =>
    advance
    match ← peek? with
    | some (.anchor name) =>
      advance
      return (some name, some (← tagText h rest))
    | _ => return (none, some (← tagText h rest))
  | _ => return (none, none)

def addEmpty : Assembly NodeId := add Node.empty

end Assembly

open Assembly

mutual

/-- Reads a node.  In a mapping the items of a sequence may stand where the key stands.  Of two
nested nodes the inner one starts at least a token later, so `fuel` at twice the number of tokens
is enough. -/
def readNode (inMapping : Bool) (fuel : Nat) : Assembly NodeId :=
  match fuel with
  | 0 => fail
  | fuel + 1 => do
    if let some (.reference name) ← peek? then
      advance
      return ← anchored name
    let (name, text) ← properties
    let isBare := name.isNone && text.isNone
    let anchors := (← get).anchors
    let isTaken := name.any fun s => (anchors.lookup s).isSome
    -- The mark alone asks for the tag that the text has by its form.
    let plainMark := text = some "!"
    let tag := (text.filter (· ≠ "!")).map Tag.ofName
    let start : Assembly Unit := if isTaken then fail else pure ()
    match ← peek? with
    | some .item =>
      if inMapping then
        start
        collection name (tag.getD .sequence)
          (Content.sequence <$> readItems [.key, .value] fuel)
      else if isBare then fail
      else
        start
        scalar name tag true []
    | some (.scalar plain text) =>
      advance
      start
      scalar name tag (plain || plainMark) text
    | some .openBracket =>
      start
      advance
      collection name (tag.getD .sequence) (Content.sequence <$> readListed fuel)
    | some .openBrace =>
      start
      advance
      collection name (tag.getD .mapping) (Content.mapping <$> readBraced fuel)
    | some .blockSequence =>
      start
      advance
      collection name (tag.getD .sequence) do
        let items ← readItems [] fuel
        if !(← take .blockEnd) then fail
        return .sequence items
    | some .blockMapping =>
      start
      advance
      collection name (tag.getD .mapping) do
        let entries ← readEntries fuel
        if !(← take .blockEnd) then fail
        return .mapping entries
    | _ =>
      if isBare then fail
      start
      scalar name tag true []

/-- Reads a node that may be left out, where one of some tokens or the end of the block follows. -/
def readOptional (inMapping : Bool) (stops : List Token) (fuel : Nat) : Assembly NodeId := do
  match fuel with
  | 0 => fail
  | fuel + 1 =>
    if ← next stops then addEmpty else readNode inMapping fuel

def readItems (stops : List Token) (fuel : Nat) : Assembly (List NodeId) :=
  match fuel with
  | 0 => fail
  | fuel + 1 => do
    if !(← take .item) then return []
    let n ← readOptional false (.item :: .blockEnd :: stops) fuel
    return n :: (← readItems stops fuel)

def readEntries (fuel : Nat) : Assembly (List (NodeId × NodeId)) :=
  match fuel with
  | 0 => fail
  | fuel + 1 => do
    if ← next [.blockEnd] then return []
    let k ← if ← take .key then readOptional true [.key, .value, .blockEnd] fuel else fail
    let v ← if ← take .value then readOptional true [.key, .value, .blockEnd] fuel else addEmpty
    return (k, v) :: (← readEntries fuel)

/-- Reads the items of a sequence in brackets up to its end; an entry is a mapping of its own. -/
def readListed (fuel : Nat) : Assembly (List NodeId) :=
  match fuel with
  | 0 => fail
  | fuel + 1 => do
    if ← take .closeBracket then return []
    let n ← if ← take .key then
        collection none .mapping do
          let k ← readOptional false [.value, .comma, .closeBracket] fuel
          let v ← if ← take .value then readOptional false [.comma, .closeBracket] fuel
            else addEmpty
          return .mapping [(k, v)]
      else readNode false fuel
    if ← take .closeBracket then return [n]
    if !(← take .comma) then fail
    return n :: (← readListed fuel)

def readBraced (fuel : Nat) : Assembly (List (NodeId × NodeId)) :=
  match fuel with
  | 0 => fail
  | fuel + 1 => do
    if ← take .closeBrace then return []
    let e ← if ← take .key then
        let k ← readOptional false [.value, .comma, .closeBrace] fuel
        let v ← if ← take .value then readOptional false [.comma, .closeBrace] fuel
          else addEmpty
        pure (k, v)
      else
        let k ← readNode false fuel
        pure (k, ← addEmpty)
    if ← take .closeBrace then return [e]
    if !(← take .comma) then fail
    return e :: (← readBraced fuel)

end

/-- Reads the directives in front of a document, at most `fuel` of them: at most one version, and
each handle once. -/
def readDirectives (fuel : Nat) (version : Bool) : Assembly Unit := do
  match fuel, ← peek? with
  | fuel + 1, some (.directive d) =>
    advance
    match d with
    | .version major =>
      if version || major ≠ 1 then fail
      readDirectives fuel true
    | .handle name expansion =>
      if ((← get).handles.lookup name).isSome then fail
      modify fun c => { c with handles := (name, expansion) :: c.handles }
      readDirectives fuel version
    | .unknown => readDirectives fuel version
  | _, _ => modify fun c => { c with handles := c.handles ++ plainHandles }

/-- Passes over marks of the end of a document, at most `fuel` of them. -/
def skipEnds : Nat → Assembly Unit
  | 0 => pure ()
  | fuel + 1 => do if ← take .documentEnd then skipEnds fuel

def readStart : Assembly Unit := do
  readDirectives (← get).scan.tokens.length false
  if !(← take .documentStart) then fail

def readRoot : Assembly NodeId := do readNode false (2 * (← get).scan.tokens.length + 2)

/-- Reads a document, if there is one, and nothing behind it. -/
def readDocument? : Assembly (Option NodeId) := do
  let root ← match ← peek? with
    | none => return none
    | some (.directive _) | some .documentStart =>
      readStart
      match ← peek? with
      | none | some (.directive _) | some .documentStart | some .documentEnd => addEmpty
      | some _ => readRoot
    | some _ =>
      modify fun c => { c with handles := plainHandles }
      readRoot
  skipEnds (← get).scan.tokens.length
  if (← peek?).isNone then return some root
  modify fun c => { c with handles := [] }
  readStart
  fail

/-- The document that the tokens hold, if they hold one. -/
def Document.ofScan? (scan : Scan) : Except Fault (Option Document) := do
  let (root, c) ← readDocument?.run { scan }
  return root.map fun n => ⟨c.graph, n⟩

end Cohort.Yaml
