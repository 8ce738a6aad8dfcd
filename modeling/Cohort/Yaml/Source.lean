import Cohort.Misuse

/-!
# Placed characters

YAML text as it is read: every character with the line and the column where it
stands, since layout has meaning.  Line ends are made uniform first, and a text
with a character that may not occur in a document is refused.
-/

namespace Cohort.Yaml

/-- Why a text gives no value. -/
inductive Fault where
  /-- The text is not a YAML document. -/
  | malformed
  /-- The document is well formed and has a scalar that its tag does not fit. -/
  | unfit (m : Misuse)
  deriving DecidableEq, Repr

/-- A character and where it stands. -/
structure Placed where
  char : Char
  line : Nat
  column : Nat
  offset : Nat
  deriving DecidableEq, Repr

abbrev Source := List Placed

/-- The mark that may open a text and has no width. -/
def byteOrderMark : Char := '\uFEFF'

def isAllowed (c : Char) : Bool :=
  let n := c.toNat
  n == 0x09 || n == 0x0A || n == 0x0D || (0x20 ≤ n && n ≤ 0x7E) || n == 0x85
    || (0xA0 ≤ n && n ≤ 0xFFFD) || 0x10000 ≤ n

/-- The characters that end a line; the other line ends are written as line feeds. -/
def isBreak (c : Char) : Bool := c = '\n' || c = '\u2028' || c = '\u2029'

/-- A text whose line ends are line feeds, line separators and paragraph separators. -/
def uniformBreaks : List Char → List Char
  | [] => []
  | '\r' :: '\n' :: cs => '\n' :: uniformBreaks cs
  | c :: cs => (if c = '\r' ∨ c = '\u0085' then '\n' else c) :: uniformBreaks cs

namespace Source

def place (line column offset : Nat) : List Char → Source
  | [] => []
  | c :: cs =>
    ⟨c, line, column, offset⟩ ::
      if isBreak c then place (line + 1) 0 (offset + 1) cs
      else if c = byteOrderMark then place line column (offset + 1) cs
      else place line (column + 1) (offset + 1) cs

def ofText (text : String) : Except Fault Source :=
  let cs := uniformBreaks text.toList
  if cs.all isAllowed then
    .ok <| match place 0 0 0 cs with
      | p :: ps => if p.char = byteOrderMark then ps else p :: ps
      | [] => []
  else .error .malformed

def chars (s : Source) : List Char := s.map (·.char)

@[simp] theorem chars_nil : chars [] = [] := rfl

@[simp] theorem chars_cons (p : Placed) (s : Source) : chars (p :: s) = p.char :: chars s := rfl

@[simp] theorem chars_place (line column offset : Nat) (cs : List Char) :
    (place line column offset cs).chars = cs := by
  induction cs generalizing line column offset with
  | nil => rfl
  | cons c cs ih =>
    simp only [place, chars_cons]
    split
    · simp [ih]
    · split <;> simp [ih]

/-- Whether a word ends here: at a blank, at a line end or at the end of the text. -/
def atGap : Source → Bool
  | [] => true
  | p :: _ => p.char = ' ' || p.char = '\t' || isBreak p.char

def atBreak : Source → Bool
  | [] => true
  | p :: _ => isBreak p.char

def atAny (marks : String) : Source → Bool
  | [] => false
  | p :: _ => marks.toList.contains p.char

/-- Whether the line is a marker: the same character three times at its start, then a gap. -/
def atMarker (c : Char) : Source → Bool
  | p :: q :: r :: rest =>
    p.column = 0 && p.char = c && q.char = c && r.char = c && atGap rest
  | _ => false

def atDocumentMarker (s : Source) : Bool := atMarker '-' s || atMarker '.' s

def skipSpaces (s : Source) : Source := s.dropWhile (·.char = ' ')

def toBreak (s : Source) : Source := s.dropWhile fun p => !isBreak p.char

def skipBlankLine (s : Source) : Except Fault Source :=
  match skipSpaces s with
  | [] => .ok []
  | p :: ps =>
    if p.char = '#' then .ok (toBreak ps |>.drop 1)
    else if isBreak p.char then .ok ps
    else .error .malformed

/-- Skips blanks, comments and line ends; whether a line ended, and what follows. -/
def skipGap (inComment : Bool) : Source → Bool × Source
  | [] => (false, [])
  | p :: ps =>
    if isBreak p.char then (true, (skipGap false ps).2)
    else if inComment || p.char = ' ' then skipGap inComment ps
    else if p.char = '#' then skipGap true ps
    else (false, p :: ps)

end Source

def isNameChar (c : Char) : Bool := c.isAlphanum || c = '-' || c = '_'

/-- The text of a run of line ends between two words: a single line feed is a blank, and of more
the first is left out. -/
def foldBreaks (first : Char) (more : List Char) : List Char :=
  if first ≠ '\n' then first :: more
  else if more.isEmpty then [' ']
  else more

end Cohort.Yaml
