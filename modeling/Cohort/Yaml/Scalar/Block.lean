import Cohort.Yaml.Source

/-!
# Block scalars

Scalars that are indented lines of their own.  A literal one keeps its line
ends; a folded one joins neighbouring lines that do not start with a blank.  The
last line end is cut, kept or kept with the empty lines behind it.
-/

namespace Cohort.Yaml

open Source

/-- What becomes of the line ends at the end. -/
inductive Chomping where
  | strip
  | clip
  | keep
  deriving DecidableEq, Repr

/-- What the first line of a block scalar says. -/
structure BlockHeader where
  folded : Bool
  chomping : Chomping
  /-- The indentation relative to the collection around the scalar, if it is given. -/
  indentation : Option Nat
  deriving DecidableEq, Repr

/-- A line of a block scalar: the ends of the empty lines before it, its text without the
indentation, and its own end, which is missing at the end of the text. -/
structure BlockLine where
  blanks : List Char
  text : List Char
  ending : List Char
  deriving DecidableEq, Repr

namespace BlockHeader

def chomping? : Char → Option Chomping
  | '+' => some .keep
  | '-' => some .strip
  | _ => none

def indentation? (c : Char) : Option Nat :=
  if '1' ≤ c ∧ c ≤ '9' then some (c.toNat - '0'.toNat) else none

/-- Takes the character in front if it is a mark with a meaning. -/
def takeMark {α : Type} (meaning? : Char → Option α) (s : Source) : Option α × Source :=
  match s with
  | [] => (none, [])
  | p :: ps =>
    match meaning? p.char with
    | some a => (some a, ps)
    | none => (none, p :: ps)

/-- Reads the marks of a header, in either order, up to the end of its line. -/
def read (folded : Bool) (s : Source) : Except Fault (BlockHeader × Source) :=
  let (before, s) := takeMark chomping? s
  let (indentation, s) := takeMark indentation? s
  let (behind, s) := if before.isSome then (none, s) else takeMark chomping? s
  if atBreak s || atAny " " s then
    (skipBlankLine s).map fun s => (⟨folded, (before <|> behind).getD .clip, indentation⟩, s)
  else .error .malformed

end BlockHeader

namespace BlockLine

def startsBlank (l : BlockLine) : Bool := l.text.head?.any fun c => c = ' ' || c = '\t'

/-- Splits off the lines that are indented to a column.  `blanks` are the ends of the empty lines
so far, and `line` is the reversed text of the line that is being read; the result also has the
ends of the empty lines behind the last line. -/
def split (indent : Nat) (blanks : List Char) (line : Option (List Char)) :
    Source → List BlockLine × List Char × Source
  | [] =>
    match line with
    | none => ([], blanks, [])
    | some text => ([⟨blanks, text.reverse, []⟩], [], [])
  | p :: ps =>
    match line with
    | some text =>
      if isBreak p.char then
        let (ls, rest) := split indent [] none ps
        (⟨blanks, text.reverse, [p.char]⟩ :: ls, rest)
      else split indent blanks (some (p.char :: text)) ps
    | none =>
      if p.column < indent ∧ p.char = ' ' then split indent blanks none ps
      else if isBreak p.char then split indent (blanks ++ [p.char]) none ps
      else if p.column = indent then split indent blanks (some [p.char]) ps
      else ([], blanks, p :: ps)

def joint (folded : Bool) (l next : BlockLine) : List Char :=
  if folded && l.ending = ['\n'] && !l.startsBlank && !next.startsBlank then
    if next.blanks.isEmpty then [' '] else []
  else l.ending

/-- The text of the lines, with `blanks` as the ends of the empty lines behind the last one. -/
def join (h : BlockHeader) (blanks : List Char) : List BlockLine → List Char
  | [] => if h.chomping = .keep then blanks else []
  | [l] =>
    l.blanks ++ l.text ++ (if h.chomping = .strip then [] else l.ending)
      ++ if h.chomping = .keep then blanks else []
  | l :: next :: rest => l.blanks ++ l.text ++ joint h.folded l next ++ join h blanks (next :: rest)

end BlockLine

/-- The column that the first line with text, or a longer line of blanks before it, reaches. -/
def reachedColumn (reached : Nat) : Source → Nat
  | [] => reached
  | p :: ps =>
    if p.char = ' ' then reachedColumn (max reached (p.column + 1)) ps
    else if isBreak p.char then reachedColumn reached ps
    else reached

/-- Skips blanks and line ends; the line ends, and what follows. -/
def leadingBreaks : Source → List Char × Source
  | [] => ([], [])
  | p :: ps =>
    if p.char = ' ' then leadingBreaks ps
    else if isBreak p.char then
      let (bs, rest) := leadingBreaks ps
      (p.char :: bs, rest)
    else ([], p :: ps)

/-- Reads a block scalar behind its opening character, inside a collection whose items start
before the column `indent`. -/
def readBlock (folded : Bool) (indent : Nat) (s : Source) :
    Except Fault (List Char × Source) := do
  let (h, s) ← BlockHeader.read folded s
  let least := max 1 indent
  let (lines, blanks, rest) := match h.indentation with
    | some n => BlockLine.split (least + n - 1) [] none s
    | none =>
      let (blanks, body) := leadingBreaks s
      BlockLine.split (max least (reachedColumn 0 s)) blanks none body
  return (BlockLine.join h blanks lines, rest)

end Cohort.Yaml
