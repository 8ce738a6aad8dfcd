import Cohort.Date.Stamp
import Cohort.Decimal.Reader

/-!
# Tags

What a node is.  A plain scalar has the tag of the first form that its text
has, in the manner of YAML 1.1: words for truth, numbers of several bases with
underscores between the digits, numbers of minutes and seconds, and stamps.
-/

namespace Cohort.Yaml

open Decimal (splitSign)

inductive Tag where
  | null
  | bool
  | int
  | float
  | stamp
  | text
  | binary
  | sequence
  | mapping
  | set
  /-- A sequence of mappings of one entry each. -/
  | pairs
  /-- The key of entries that are taken over from other mappings. -/
  | merge
  /-- The key that a mapping may have for its plain value. -/
  | default
  /-- Any other tag; it may be written where the value of the node is not asked for. -/
  | other
  deriving DecidableEq, Repr

namespace Tag

def trueWords : List String :=
  ["yes", "Yes", "YES", "true", "True", "TRUE", "on", "On", "ON"]

def falseWords : List String :=
  ["no", "No", "NO", "false", "False", "FALSE", "off", "Off", "OFF"]

def nullWords : List String := ["~", "null", "Null", "NULL"]

/-- Whether a text is not empty and has only characters that satisfy `p`, or underscores. -/
def isRun (p : Char → Bool) (cs : List Char) : Bool :=
  !cs.isEmpty && cs.all fun c => p c || c = '_'

def isDigits : List Char → Bool
  | [] => false
  | c :: cs => c.isDigit && cs.all fun c => c.isDigit || c = '_'

/-- The parts between the colons. -/
def colonParts : List Char → List (List Char)
  | [] => [[]]
  | c :: cs =>
    if c = ':' then [] :: colonParts cs
    else match colonParts cs with
      | part :: parts => (c :: part) :: parts
      | [] => [[c]]

def isSixtieth : List Char → Bool
  | [a] => a.isDigit
  | [a, b] => a.isDigit && a ≤ '5' && b.isDigit
  | _ => false

def isSexagesimal (cs : List Char) : Bool :=
  match colonParts cs with
  | first :: more => isDigits first && !more.isEmpty && more.all isSixtieth
  | [] => false

/-- The form of a whole number: binary, octal, decimal, hexadecimal or sexagesimal. -/
def isInt (cs : List Char) : Bool :=
  match (splitSign cs).2 with
  | [] => false
  | ['0'] => true
  | '0' :: c :: cs =>
    if c = 'b' then isRun (fun c => c = '0' || c = '1') cs
    else if c = 'x' then isRun (fun c => (Text.hexValue? c).isSome) cs
    else isRun (fun c => '0' ≤ c && c ≤ '7') (c :: cs)
  | cs => cs.head? ≠ some '0' && (isDigits cs || isSexagesimal cs)

def isExponent : List Char → Bool
  | [] => true
  | e :: s :: ds =>
    (e = 'e' || e = 'E') && (s = '+' || s = '-') && !ds.isEmpty && ds.all Char.isDigit
  | _ => false

def isFraction (cs : List Char) : Bool :=
  isExponent (cs.dropWhile fun c => c.isDigit || c = '_')

/-- The form of a floating-point number: it has a point. -/
def isFloat (cs : List Char) : Bool :=
  let unsigned := (splitSign cs).2
  let whole := unsigned.takeWhile (· ≠ '.')
  let fraction := unsigned.drop (whole.length + 1)
  let hasPoint := whole.length < unsigned.length
  if [".inf", ".Inf", ".INF"].contains (String.ofList unsigned) then true
  else if [".nan", ".NaN", ".NAN"].contains (String.ofList cs) then true
  else if !hasPoint then false
  else if whole.isEmpty then
    unsigned.length = cs.length && (fraction.head?.any Char.isDigit) && isFraction fraction
  else (isDigits whole && isFraction fraction)
    || (isSexagesimal whole && fraction.all fun c => c.isDigit || c = '_')

/-- The form of a stamp; a day alone has two digits for the month and for the day. -/
def isStamp (cs : List Char) : Bool :=
  match Date.StampForm.read? cs with
  | some f => f.time.isSome || cs.length = 10
  | none => false

/-- A text without the line end that it may have. -/
def dropFinalBreak (cs : List Char) : List Char :=
  if cs.getLast? = some '\n' then cs.dropLast else cs

/-- The tag of a plain scalar.  A line end behind the text does not count. -/
def ofPlain (cs : List Char) : Tag :=
  let line := dropFinalBreak cs
  let s := String.ofList line
  if cs.isEmpty then null
  else if trueWords.contains s || falseWords.contains s then bool
  else if isFloat line then float
  else if isInt line then int
  else if s = "<<" then merge
  else if nullWords.contains s then null
  else if isStamp line then stamp
  else if s = "=" then default
  else if ["!", "&", "*"].contains s then other
  else text

def space : String := "tag:yaml.org,2002:"

/-- The tags of the language by their names; the two tags of pairs differ in intent alone. -/
def names : List (String × Tag) :=
  [("null", null), ("bool", bool), ("int", int), ("float", float), ("timestamp", stamp),
   ("str", text), ("binary", binary), ("seq", sequence), ("map", mapping), ("set", set),
   ("pairs", pairs), ("omap", pairs), ("merge", merge), ("value", default)]

def ofName (name : String) : Tag :=
  ((names.find? fun p => space ++ p.1 = name).map (·.2)).getD other

end Tag

end Cohort.Yaml
