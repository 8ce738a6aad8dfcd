import Cohort.Decimal.Reader
import Cohort.Misuse
import Cohort.Value.Basic

/-!
# Conversions

Values taken as numbers or as maps, where any value may be given: texts are
read, truth values count as zero and one, and sequences of pairs are maps.
-/

namespace Cohort.Value

open Decimal (Binary)

/-- A value as a whole number; fractions are cut off. -/
def toInt : Value → Except Misuse Int
  | int n => .ok n
  | bool b => .ok b.toNat
  | float x =>
    match Binary.ofFloat x with
    | .nan => .error .value
    | .infinite _ => .error .range
    | exact => .ok (exact.truncate?.getD 0)
  | text s =>
    match Decimal.readInt? s with
    | some n => .ok n
    | none => .error .value
  | _ => .error .kind

/-- The floating-point number nearest to a whole number, if there is one. -/
def floatOfInt (n : Int) : Except Misuse Float :=
  let x := Decimal.nearest n.natAbs 0
  if x.isInf then .error .range else .ok (if n < 0 then -x else x)

def toFloat : Value → Except Misuse Float
  | float x => .ok x
  | int n => floatOfInt n
  | bool b => .ok (if b then 1.0 else 0.0)
  | text s =>
    match Decimal.readFloat? s with
    | some x => .ok x
    | none => .error .value
  | _ => .error .kind

def toPair (v : Value) : Except Misuse (Value × Value) :=
  match v.parts? with
  | none => .error .kind
  | some [k, w] => if k.isKey then .ok (k, w) else .error .kind
  | some _ => .error .value

/-- A value as a map: a map itself, or pairs written one after the other. -/
def toEntries : Value → Except Misuse Entries
  | map es => .ok es
  | v =>
    match v.parts? with
    | none => .error .kind
    | some xs => (xs.mapM toPair).map Entries.ofPairs

end Cohort.Value
