import Cohort.Yaml.Scalar.Quoted

/-!
# Plain scalars

Scalars without quotes.  A plain scalar ends before a comment, before a colon
that a gap follows, before a document marker and, outside of brackets, before a
line that is not indented far enough; inside of brackets also before the
characters that structure a collection.
-/

namespace Cohort.Yaml

open Source

def startsPlain (inBrackets : Bool) : Source → Bool
  | [] => false
  | p :: ps =>
    let c := p.char
    if c = '-' then !atGap ps
    else if c = '?' ∨ c = ':' then !inBrackets && !atGap ps
    else !(atGap [p]) && !atAny ",[]\x7b\x7d#&*!|>'\"%@\x60" [p]

def endsWord (inBrackets : Bool) : Source → Bool
  | [] => true
  | p :: ps =>
    atGap [p] || (p.char = ':' && (atGap ps || (inBrackets && atAny ",[]\x7b\x7d" ps)))
      || (inBrackets && atAny ",?[]\x7b\x7d" [p])

/-- Whether a plain scalar does not go on with the word here, behind a gap. -/
def endsPlain (inBrackets : Bool) (indent : Nat) : Source → Bool
  | [] => true
  | p :: ps =>
    p.char = '#' || (!inBrackets && p.column < indent) || atDocumentMarker (p :: ps)
      || endsWord inBrackets (p :: ps)

/-- Reads the rest of a plain scalar.  `back` is the text from the gap on that may turn out to end
the scalar. -/
def readPlain (inBrackets : Bool) (indent : Nat) (back : Source) (gap : Gap) :
    Source → List Char × Source
  | [] => ([], if gap = .none then [] else back)
  | p :: ps =>
    let back := if gap = .none then p :: ps else back
    if p.char = ' ' then readPlain inBrackets indent back (gap.blank ' ') ps
    else if isBreak p.char then readPlain inBrackets indent back (gap.line p.char) ps
    else if (if gap = .none then endsWord inBrackets (p :: ps)
        else endsPlain inBrackets indent (p :: ps)) then ([], back)
    else
      let (cs, rest) := readPlain inBrackets indent [] .none ps
      (gap.chars ++ p.char :: cs, rest)

end Cohort.Yaml
