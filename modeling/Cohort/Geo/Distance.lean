import Cohort.Value.Convert
import Cohort.Value.Text

/-!
# Points and distances

A point of the earth is stored as a latitude and a longitude with a comma
between them.  Distances are measured along the great circle.
-/

namespace Cohort.Geo

def earthRadius : Float := 6371008.8

def pi : Float := 3.141592653589793

/-- Writes a point; where a coordinate is missing there is none. -/
def encodePoint (lat lng : Value) : Except Misuse Value :=
  match lat, lng with
  | .null, _ => .ok .null
  | _, .null => .ok .null
  | lat, lng => do
    let y ← lat.toFloat
    let x ← lng.toFloat
    return .text (Value.numberLayout.render y ++ "," ++ Value.numberLayout.render x)

def decodePoint? : Value → Option (Float × Float)
  | .text s =>
    match s.splitOn "," with
    | [a, b] => do return (← Decimal.readFloat? a, ← Decimal.readFloat? b)
    | _ => none
  | _ => none

def radians (degrees : Float) : Float := degrees * (pi / 180.0)

/-- The sine, or the cosine; an infinite angle has neither. -/
def ofAngle (f : Float → Float) (angle : Float) : Except Misuse Float :=
  if angle.isInf then .error .value else .ok (f angle)

def root (x : Float) : Except Misuse Float :=
  if x < 0.0 then .error .value else .ok x.sqrt

def distanceBetween (a b : Float × Float) : Except Misuse Float := do
  let lat1 := radians a.1
  let lng1 := radians a.2
  let lat2 := radians b.1
  let lng2 := radians b.2
  let s ← ofAngle Float.sin ((lat2 - lat1) / 2.0)
  let c1 ← ofAngle Float.cos lat1
  let c2 ← ofAngle Float.cos lat2
  let t ← ofAngle Float.sin ((lng2 - lng1) / 2.0)
  let chord ← root (s * s + c1 * c2 * (t * t))
  return 2.0 * earthRadius * (if chord < 1.0 then chord else 1.0).asin

/-- The distance between two stored points, if both are points. -/
def distance (a b : Value) : Except Misuse (Option Float) :=
  match decodePoint? a, decodePoint? b with
  | some p, some q => (distanceBetween p q).map some
  | _, _ => .ok none

end Cohort.Geo
