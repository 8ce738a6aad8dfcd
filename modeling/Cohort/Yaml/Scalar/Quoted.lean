import Cohort.Text.Digit
import Cohort.Text.Surrogate
import Cohort.Yaml.Source

/-!
# Quoted scalars

Scalars between apostrophes or double quotes, which may go over several lines.
Blanks at the end and the start of a line do not count, and line ends are
folded.  Between double quotes the backslash escapes.
-/

namespace Cohort.Yaml

open Source

/-- The blanks or line ends that may separate two words of a scalar. -/
inductive Gap where
  | none
  /-- Blanks within a line. -/
  | blanks (cs : List Char)
  /-- Line ends. -/
  | lines (first : Char) (more : List Char)
  /-- Line ends behind an escaped one. -/
  | joined (more : List Char)
  deriving DecidableEq, Repr

namespace Gap

/-- The gap with a further blank: one beside a line end does not count. -/
def blank (c : Char) : Gap → Gap
  | none => blanks [c]
  | blanks cs => blanks (cs ++ [c])
  | g => g

def line (c : Char) : Gap → Gap
  | none => lines c []
  | blanks _ => lines c []
  | lines first more => lines first (more ++ [c])
  | joined more => joined (more ++ [c])

def chars : Gap → List Char
  | none => []
  | blanks cs => cs
  | lines first more => foldBreaks first more
  | joined more => more

@[simp] theorem chars_none : chars none = [] := rfl

end Gap

def escaped? : Char → Option Char
  | '0' => some '\x00'
  | 'a' => some '\x07'
  | 'b' => some '\x08'
  | 't' => some '\t'
  | '\t' => some '\t'
  | 'n' => some '\n'
  | 'v' => some '\x0B'
  | 'f' => some '\x0C'
  | 'r' => some '\r'
  | 'e' => some '\x1B'
  | ' ' => some ' '
  | '"' => some '"'
  | '\\' => some '\\'
  | '/' => some '/'
  | 'N' => some '\u0085'
  | '_' => some '\u00A0'
  | 'L' => some '\u2028'
  | 'P' => some '\u2029'
  | _ => none

def escapeWidth? : Char → Option Nat
  | 'x' => some 2
  | 'u' => some 4
  | 'U' => some 8
  | _ => none

def charOfCode (n : Nat) : Except Fault Char :=
  if n ≤ 0x10FFFF then .ok (Text.charOfCode n)
  else .error (.unfit (if n < Nat.pow 2 31 then .value else .range))

/-- Where the reader of a quoted scalar is. -/
inductive QuotedPlace where
  | words (gap : Gap)
  /-- Behind a backslash. -/
  | escape
  /-- Inside the digits of a code: one more than `left` are still to come. -/
  | code (left value : Nat)
  deriving DecidableEq, Repr

def withChars (cs : List Char) (r : Except Fault (List Char × Source)) :
    Except Fault (List Char × Source) :=
  r.map fun r => (cs ++ r.1, r.2)

def readDoubleQuoted : QuotedPlace → Source → Except Fault (List Char × Source)
  | _, [] => .error .malformed
  | .escape, p :: ps =>
    match escaped? p.char, escapeWidth? p.char with
    | some c, _ => withChars [c] (readDoubleQuoted (.words .none) ps)
    | none, some width => readDoubleQuoted (.code (width - 1) 0) ps
    | none, none =>
      if isBreak p.char then readDoubleQuoted (.words (.joined [])) ps else .error .malformed
  | .code left n, p :: ps =>
    match Text.hexValue? p.char with
    | none => .error .malformed
    | some d =>
      match left with
      | 0 =>
        match charOfCode (16 * n + d) with
        | .ok c => withChars [c] (readDoubleQuoted (.words .none) ps)
        | .error e => .error e
      | left + 1 => readDoubleQuoted (.code left (16 * n + d)) ps
  | .words gap, p :: ps =>
    if atDocumentMarker (p :: ps) then .error .malformed
    else if p.char = ' ' ∨ p.char = '\t' then readDoubleQuoted (.words (gap.blank p.char)) ps
    else if isBreak p.char then readDoubleQuoted (.words (gap.line p.char)) ps
    else if p.char = '"' then .ok (gap.chars, ps)
    else if p.char = '\\' then withChars gap.chars (readDoubleQuoted .escape ps)
    else withChars (gap.chars ++ [p.char]) (readDoubleQuoted (.words .none) ps)

/-- Reads up to the closing apostrophe; `afterMark` tells that an apostrophe was just read, which
closes the scalar unless another one follows. -/
def readSingleQuoted (afterMark : Bool) (gap : Gap) : Source → Except Fault (List Char × Source)
  | [] => if afterMark then .ok (gap.chars, []) else .error .malformed
  | p :: ps =>
    if afterMark then
      if p.char = '\'' then withChars (gap.chars ++ ['\'']) (readSingleQuoted false .none ps)
      else .ok (gap.chars, p :: ps)
    else if atDocumentMarker (p :: ps) then .error .malformed
    else if p.char = ' ' ∨ p.char = '\t' then readSingleQuoted false (gap.blank p.char) ps
    else if isBreak p.char then readSingleQuoted false (gap.line p.char) ps
    else if p.char = '\'' then readSingleQuoted true gap ps
    else withChars (gap.chars ++ [p.char]) (readSingleQuoted false .none ps)

end Cohort.Yaml
