import Cohort.Text.Base64
import Cohort.Value.Basic
import Cohort.Yaml.Source
import Cohort.Yaml.Tag

/-!
# Reading a text under a tag

`Tag.read` is the value of a text that has a tag.  A tag may be given to any
text, so what is read here is wider than the forms by which a plain scalar gets
its tag, and a text may not fit.
-/

namespace Cohort.Yaml.Tag

open Decimal (splitSign)

/-- The value of a digit in a base: a decimal digit of any script, or a letter. -/
def digitValue? (base : Nat) (c : Char) : Option Nat :=
  ((Text.digitValue? c).or (Text.hexValue? c)).filter (· < base)

def readDigits? (base : Nat) (cs : List Char) : Option Nat :=
  if cs.isEmpty then none
  else cs.foldlM (fun n c => (digitValue? base c).map (base * n + ·)) 0

/-- The number that a text writes in a base.  It may have a sign, and behind it a zero and the
letter of the base. -/
def readBase (base : Nat) (letter : Char) (cs : List Char) : Except Misuse Int :=
  let (negative, unsigned) := splitSign (Text.trimBy Decimal.isNumberBlank cs)
  let digits := match unsigned with
    | '0' :: c :: ds => if c.toLower = letter then ds else unsigned
    | _ => unsigned
  match readDigits? base digits with
  | some n => .ok (if negative then -n else n)
  | none => .error .value

def readDecimal (cs : List Char) : Except Misuse Int :=
  match Decimal.readInt? (String.ofList cs) with
  | some n => .ok n
  | none => .error .value

/-- The number of a text without the sign in front and without underscores.  What is behind that
sign may have one of its own. -/
def readMagnitude (cs : List Char) : Except Misuse Int :=
  match cs with
  | [] => .error .index
  | ['0'] => .ok 0
  | '0' :: 'b' :: ds => readBase 2 'b' ds
  | '0' :: 'x' :: ds => readBase 16 'x' ds
  | '0' :: _ => readBase 8 'o' cs
  | _ => do
    let parts ← (colonParts cs).mapM readDecimal
    return parts.foldl (fun n part => 60 * n + part) 0

def readInt (cs : List Char) : Except Misuse Int :=
  let (negative, unsigned) := splitSign (cs.filter (· ≠ '_'))
  (readMagnitude unsigned).map fun n => if negative then -n else n

def readDecimalFloat (cs : List Char) : Except Misuse Float :=
  match Decimal.readFloat? (String.ofList cs) with
  | some x => .ok x
  | none => .error .value

/-- A sum of parts, the last one first, that weigh sixty times as much from each to the next. -/
def sumParts (weight : Nat) (sum : Float) : List Float → Except Misuse Float
  | [] => .ok sum
  | x :: xs =>
    let w := Decimal.nearest weight 0
    if w.isInf then .error .range else sumParts (weight * 60) (sum + x * w) xs

def readFloat (cs : List Char) : Except Misuse Float := do
  let digits := (cs.filter (· ≠ '_')).map Char.toLower
  if digits.isEmpty then throw .index
  let (negative, unsigned) := splitSign digits
  let size ←
    if String.ofList unsigned = ".inf" then pure Decimal.infinity
    else if String.ofList unsigned = ".nan" then pure Decimal.nan
    else if unsigned.contains ':' then
      sumParts 1 0.0 (← (colonParts unsigned).mapM readDecimalFloat).reverse
    else readDecimalFloat unsigned
  return if negative then -size else size

def readBool (cs : List Char) : Except Misuse Bool :=
  let s := String.ofList (cs.map Char.toLower)
  if trueWords.contains s then .ok true
  else if falseWords.contains s then .ok false
  else .error .key

def readStamp (cs : List Char) : Except Misuse Date.Stamp :=
  match Date.StampForm.read? (dropFinalBreak cs) with
  | some f => f.toStamp
  | none => .error .part

/-- The value of a text under a tag; under the tag of a collection or of a special key it has
none. -/
def read (cs : List Char) : Tag → Except Fault Value
  | null => .ok .null
  | bool => ((readBool cs).map Value.bool).mapError .unfit
  | int => ((readInt cs).map Value.int).mapError .unfit
  | float => ((readFloat cs).map Value.float).mapError .unfit
  | stamp => ((readStamp cs).map Value.stamp).mapError .unfit
  | text => .ok (.text (String.ofList cs))
  | binary =>
    match Text.Base64.decode? cs with
    | some bs => if cs.all (·.toNat < 0x80) then .ok (.bytes bs) else .error .malformed
    | none => .error .malformed
  | _ => .error .malformed

end Cohort.Yaml.Tag
