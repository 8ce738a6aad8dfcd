import Cohort.Decimal.Reader
import Cohort.Yaml.Scalar.Block
import Cohort.Yaml.Scalar.Plain
import Cohort.Yaml.Token.Word

/-!
# Reading tokens

`Scan.ofText` splits a text into tokens.  Whether a scalar or a collection in
brackets is a key shows only at the colon behind it, so the reader remembers
where a key may have started and puts the token that says so in front of it
later.  A key ends on the line where it starts, within a fixed distance.  A text
with a fault has the tokens that are settled before the fault is met.
-/

namespace Cohort.Yaml

open Source

/-- A place where a key may have started. -/
structure PossibleKey where
  /-- How many tokens are before it. -/
  position : Nat
  /-- Whether nothing but a key can stand here. -/
  required : Bool
  start : Placed

/-- The tokens read so far and what they leave open. -/
structure Progress where
  tokens : Array Token := #[]
  /-- The columns of the open blocks, the innermost first. -/
  blocks : List Nat := []
  /-- Whether a key may start here. -/
  keyAllowed : Bool := true
  pending : Option PossibleKey := none
  /-- The possible keys outside of each open bracket, the innermost first. -/
  outer : List (Option PossibleKey) := []

def maxKeyLength : Nat := 1024

namespace PossibleKey

/-- Whether the text at `p` is too far behind for a key that starts here. -/
def isStale (k : PossibleKey) (p : Placed) : Bool :=
  k.start.line ≠ p.line || maxKeyLength < p.offset - k.start.offset

/-- Gives up a possible key, unless it has to be one. -/
def drop : Option PossibleKey → Except Fault Unit
  | some k => if k.required then .error .malformed else .ok ()
  | none => .ok ()

def dropStale (p : Placed) (key : Option PossibleKey) : Except Fault (Option PossibleKey) :=
  match key with
  | some k =>
    if k.isStale p then (drop key).map fun _ => none else .ok key
  | none => .ok none

end PossibleKey

namespace Progress

def inBrackets (s : Progress) : Bool := !s.outer.isEmpty

def push (s : Progress) (t : Token) : Progress := { s with tokens := s.tokens.push t }

/-- The first column of the text inside the innermost block. -/
def margin (s : Progress) : Nat :=
  match s.blocks with
  | [] => 0
  | column :: _ => column + 1

/-- Closes the blocks that the text at a column is no part of. -/
def closeTo (column : Option Nat) (s : Progress) : Progress :=
  if s.inBrackets then s
  else
    let kept := s.blocks.dropWhile fun start => column.all (· < start)
    let closed := s.blocks.length - kept.length
    { s with blocks := kept, tokens := s.tokens ++ Array.replicate closed .blockEnd }

/-- Opens a block at a column behind that of the innermost one; its token goes to `position`. -/
def openBlock (t : Token) (column position : Nat) (s : Progress) : Progress :=
  if s.margin ≤ column then
    { s with blocks := column :: s.blocks, tokens := s.tokens.insertIdxIfInBounds position t }
  else s

/-- Gives up the possible key, unless it has to be one. -/
def dropKey (s : Progress) : Except Fault Progress :=
  (PossibleKey.drop s.pending).map fun _ => { s with pending := none }

def noteKey (p : Placed) (s : Progress) : Except Fault Progress := do
  if !s.keyAllowed then return s
  let s ← s.dropKey
  let required := !s.inBrackets && s.blocks.head? = some p.column
  return { s with pending := some ⟨s.tokens.size, required, p⟩ }

def dropStaleKeys (p : Placed) (s : Progress) : Except Fault Progress := do
  let pending ← PossibleKey.dropStale p s.pending
  let outer ← s.outer.mapM (PossibleKey.dropStale p)
  return { s with pending, outer }

/-- A token for which a key may start and behind which none may. -/
def word (p : Placed) (t : Token) (s : Progress) : Except Fault Progress := do
  let s ← s.noteKey p
  return { s.push t with keyAllowed := false }

def enter (p : Placed) (t : Token) (s : Progress) : Except Fault Progress := do
  let s ← s.noteKey p
  return { s.push t with keyAllowed := true, pending := none, outer := s.pending :: s.outer }

def leave (t : Token) (s : Progress) : Except Fault Progress := do
  let s ← s.dropKey
  match s.outer with
  | [] => .error .malformed
  | key :: outer => return { s.push t with keyAllowed := false, pending := key, outer }

def comma (s : Progress) : Except Fault Progress := do
  let s ← s.dropKey
  return { s.push .comma with keyAllowed := true }

def mark (t : Token) (s : Progress) : Except Fault Progress := do
  let s ← (s.closeTo none).dropKey
  return { s.push t with keyAllowed := false }

def item (p : Placed) (s : Progress) : Except Fault Progress := do
  if !s.inBrackets && !s.keyAllowed then throw .malformed
  let s := if s.inBrackets then s else s.openBlock .blockSequence p.column s.tokens.size
  let s ← s.dropKey
  return { s.push .item with keyAllowed := true }

def key (p : Placed) (s : Progress) : Except Fault Progress := do
  if !s.inBrackets && !s.keyAllowed then throw .malformed
  let s := if s.inBrackets then s else s.openBlock .blockMapping p.column s.tokens.size
  let s ← s.dropKey
  return { s.push .key with keyAllowed := !s.inBrackets }

/-- The mark of a value: what may have been a key is one. -/
def value (p : Placed) (s : Progress) : Except Fault Progress :=
  match s.pending with
  | some k =>
    let s := { s with tokens := s.tokens.insertIdxIfInBounds k.position .key }
    let s := if s.inBrackets then s else s.openBlock .blockMapping k.start.column k.position
    .ok { s.push .value with keyAllowed := false, pending := none }
  | none =>
    if s.inBrackets then .ok { s.push .value with keyAllowed := false }
    else if s.keyAllowed then
      .ok ((s.openBlock .blockMapping p.column s.tokens.size).push .value)
    else .error .malformed

/-- The end of the text. -/
def finish (s : Progress) : Except Fault Progress := (s.closeTo none).dropKey

/-- The tokens in front of which nothing can be put any more, once the text is read up to `source`.
-/
def settled (s : Progress) (source : Source) : List Token :=
  let isOpen (k : PossibleKey) : Bool := !source.head?.any k.isStale
  let waiting := (s.pending :: s.outer).filterMap (·.filter isOpen)
  s.tokens.toList.take (waiting.foldl (fun n k => min n k.position) s.tokens.size)

end Progress

def readNumber (s : Source) : Except Fault (Nat × Source) :=
  match takeChars Char.isDigit s with
  | ("", _) => .error .malformed
  | (ds, rest) =>
    if Decimal.maxIntegerDigits < ds.length then .error (.unfit .value)
    else .ok (ds.foldl (fun n c => 10 * n + (c.toNat - '0'.toNat)) 0, rest)

def readArguments (name : String) (s : Source) : Except Fault (Directive × Source) := do
  match name with
  | "YAML" =>
    let (major, rest) ← readNumber (skipSpaces s)
    match rest with
    | p :: rest =>
      if p.char ≠ '.' then throw .malformed
      let (_, rest) ← readNumber rest
      return (.version major, rest)
    | [] => throw .malformed
  | "TAG" =>
    let (handle, rest) ← readHandle (skipSpaces s)
    if !atAny " " rest then throw .malformed
    let (text, rest) ← readTagText (skipSpaces rest)
    return (.handle handle text, rest)
  | _ => return (.unknown, toBreak s)

def readDirective (s : Source) : Except Fault (Token × Source) := do
  match takeChars isNameChar s with
  | ("", _) => throw .malformed
  | (name, rest) =>
    if !(atBreak rest || atAny " " rest) then throw .malformed
    let (d, rest) ← readArguments name rest
    if !(atBreak rest || atAny " " rest) then throw .malformed
    return (.directive d, ← skipBlankLine rest)

/-- Reads the token that starts with `p`. -/
def Progress.read (s : Progress) (p : Placed) (ps : Source) :
    Except Fault (Progress × Source) := do
  let here := p :: ps
  if p.char = '%' && p.column = 0 then
    let (t, rest) ← readDirective ps
    return (← s.mark t, rest)
  else if atMarker '-' here then return (← s.mark .documentStart, ps.drop 2)
  else if atMarker '.' here then return (← s.mark .documentEnd, ps.drop 2)
  else if p.char = '-' && atGap ps then return (← s.item p, ps)
  else if p.char = '?' && (s.inBrackets || atGap ps) then return (← s.key p, ps)
  else if p.char = ':' && (s.inBrackets || atGap ps) then return (← s.value p, ps)
  else
    match p.char with
    | '[' => return (← s.enter p .openBracket, ps)
    | '\x7b' => return (← s.enter p .openBrace, ps)
    | ']' => return (← s.leave .closeBracket, ps)
    | '\x7d' => return (← s.leave .closeBrace, ps)
    | ',' => return (← s.comma, ps)
    | '*' =>
      let (name, rest) ← readName ps
      return (← s.word p (.reference name), rest)
    | '&' =>
      let (name, rest) ← readName ps
      return (← s.word p (.anchor name), rest)
    | '!' =>
      let (t, rest) ← readTag p ps
      return (← s.word p t, rest)
    | '\'' =>
      let (text, rest) ← readSingleQuoted false .none ps
      return (← s.word p (.scalar false text), rest)
    | '"' =>
      let (text, rest) ← readDoubleQuoted (.words .none) ps
      return (← s.word p (.scalar false text), rest)
    | c =>
      if (c = '|' || c = '>') && !s.inBrackets then
        let (text, rest) ← readBlock (c = '>') s.margin ps
        let s ← s.dropKey
        return ({ s.push (.scalar false text) with keyAllowed := true }, rest)
      else if startsPlain s.inBrackets here then
        let (text, rest) := readPlain s.inBrackets s.margin [] .none here
        return (← s.word p (.scalar true text), rest)
      else throw .malformed

/-- Reads the next token; behind the last one nothing is left to read. -/
def Progress.readNext (s : Progress) (source : Source) :
    Except Fault (Progress × Option Source) := do
  let (newLine, source) := skipGap false source
  let s := if newLine && !s.inBrackets then { s with keyAllowed := true } else s
  match source with
  | [] => return (← s.finish, none)
  | p :: ps =>
    let s ← s.dropStaleKeys p
    let (s, rest) ← (s.closeTo (some p.column)).read p ps
    return (s, some rest)

/-- The tokens of a text, up to the fault that it may have. -/
structure Scan where
  tokens : List Token
  fault : Option Fault

/-- Reads the rest of the tokens.  Every token but the last takes a character, so `fuel` above the
length of the text is enough. -/
def Progress.readAll (fuel : Nat) (s : Progress) (source : Source) : Scan :=
  match fuel, s.readNext source with
  | _, .error f => ⟨s.settled source, some f⟩
  | _, .ok (s, none) => ⟨s.tokens.toList, none⟩
  | 0, .ok (s, some _) => ⟨s.tokens.toList, some .malformed⟩
  | fuel + 1, .ok (s, some rest) => s.readAll fuel rest

/-- The tokens of a text; a character that may not occur leaves none of them. -/
def Scan.ofText (text : String) : Scan :=
  match Source.ofText text with
  | .ok source => Progress.readAll source.length {} source
  | .error f => ⟨[], some f⟩

end Cohort.Yaml
