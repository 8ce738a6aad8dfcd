import Cohort.Decimal.Binary
import Cohort.Text.Blank
import Cohort.Text.Digit

/-!
# Reading numbers

Whole numbers and floating-point numbers read from text.  Blanks at both ends
are skipped, digits may come from any script, and a single underscore may stand
between two digits.
-/

namespace Cohort.Decimal

open Cohort.Text

/-- The blanks around a number: those of `isBlank` but the four separator controls. -/
def isNumberBlank (c : Char) : Bool :=
  isBlank c && !(28 ≤ c.toNat && c.toNat ≤ 31)

/-- A sign in front of the rest: whether it is a minus, and what follows. -/
def splitSign : List Char → Bool × List Char
  | '-' :: cs => (true, cs)
  | '+' :: cs => (false, cs)
  | cs => (false, cs)

def startsWithDigit : List Char → Bool
  | c :: _ => (digitValue? c).isSome
  | [] => false

/-- The longest run of digits and the rest; an underscore is passed over between two digits. -/
def takeDigitsFrom (afterDigit : Bool) : List Char → List Nat × List Char
  | [] => ([], [])
  | c :: cs =>
    match digitValue? c with
    | some d =>
      let (ds, rest) := takeDigitsFrom true cs
      (d :: ds, rest)
    | none =>
      if c = '_' && afterDigit && startsWithDigit cs then takeDigitsFrom false cs
      else ([], c :: cs)

def takeDigits (cs : List Char) : List Nat × List Char := takeDigitsFrom false cs

def ofDigits (ds : List Nat) : Nat := ds.foldl (fun n d => 10 * n + d) 0

/-- No whole number is read from more digits than this. -/
def maxIntegerDigits : Nat := 4300

def readInt? (s : String) : Option Int :=
  let (negative, cs) := splitSign (trimBy isNumberBlank s.toList)
  match takeDigits cs with
  | ([], _) => none
  | (ds, []) =>
    if maxIntegerDigits < ds.length then none
    else some (if negative then -(ofDigits ds : Int) else ofDigits ds)
  | _ => none

def infinity : Float := Float.ofBits 0x7FF0000000000000

def nan : Float := Float.ofBits 0x7FF8000000000000

/-- The floating-point number nearest to `digits * 10 ^ exponent`. -/
def nearest (digits : Nat) (exponent : Int) : Float :=
  let size : Int := (Nat.toDigits 10 digits).length + exponent
  if digits = 0 then 0.0
  else if size < -400 then 0.0
  else if 400 < size then infinity
  else if 0 ≤ exponent then Float.ofScientific digits false exponent.toNat
  else Float.ofScientific digits true (-exponent).toNat

/-- The exponent part of a number: nothing, or `e`, a sign and digits, up to the end. -/
def readExponent? : List Char → Option Int
  | [] => some 0
  | e :: cs =>
    if e = 'e' ∨ e = 'E' then
      let (negative, cs) := splitSign cs
      match takeDigits cs with
      | ([], _) => none
      | (ds, []) => some (if negative then -(ofDigits ds : Int) else ofDigits ds)
      | _ => none
    else none

def readMagnitude? (cs : List Char) : Option Float :=
  let (whole, rest) := takeDigits cs
  let (part, rest) := match rest with
    | '.' :: r => takeDigits r
    | r => ([], r)
  if whole.isEmpty && part.isEmpty then none
  else (readExponent? rest).map fun e => nearest (ofDigits (whole ++ part)) (e - part.length)

/-- The floating-point number that a text writes; infinities and not-a-number are words. -/
def readFloat? (s : String) : Option Float :=
  let (negative, cs) := splitSign (trimBy isNumberBlank s.toList)
  let word := cs.map Char.toLower
  let size :=
    if word = "inf".toList ∨ word = "infinity".toList then some infinity
    else if word = "nan".toList then some nan
    else readMagnitude? cs
  size.map fun x => if negative then -x else x

end Cohort.Decimal
