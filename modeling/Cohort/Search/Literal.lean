import Cohort.Text.Blank
import Cohort.Value.Text

/-!
# Literals of the search language

A text stands for itself unless it has a blank or one of the signs of the
language; then it is written between backticks, a backtick inside it behind a
backslash.
-/

namespace Cohort.Search

/-- The signs that cannot stand in a bare text; the last one is the backtick. -/
def signs : List Char :=
  [',', '(', ')', '[', ']', '&', '|', ':', '!', '=', '<', '>', '*', '\x60']

/-- Whether a character cannot stand in a bare text. -/
def isSpecial (c : Char) : Bool := Text.isBlank c || signs.contains c

def escapeBackticks : List Char → List Char
  | [] => []
  | c :: cs => if c = '\x60' then '\\' :: '\x60' :: escapeBackticks cs else c :: escapeBackticks cs

/-- A text as a literal. -/
def literalText (cs : List Char) : List Char :=
  if cs.any isSpecial then '\x60' :: escapeBackticks cs ++ ['\x60'] else cs

/-- A value as a literal: truth values in lower case, whole numbers without a point.  A whole
floating-point number is never too long to be written. -/
def literal : Value → Except Misuse String
  | .bool b => return if b then "true" else "false"
  | .float x =>
    let exact := Decimal.Binary.ofFloat x
    match exact.isWhole, exact.truncate? with
    | true, some n => return Decimal.Layout.signed n
    | _, _ => (Value.float x).literal
  | .text s => return String.ofList (literalText s.toList)
  | v => v.display

end Cohort.Search
