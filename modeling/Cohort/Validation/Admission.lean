import Cohort.Catalog.Field
import Cohort.Date.Iso

/-!
# Admitted values

Which values a field takes under an operator.  The operator settles the shape
that is expected, and `Shape.admits` tests a value against a shape.
-/

namespace Cohort

open Decimal (Extent)

namespace Field

/-- The shape a condition must carry: a pair for a range test, one bound of a range for a
comparison, and the field's own shape otherwise. -/
def expectedFor (f : Field) : Option Operator → Shape
  | some .between => f.shape.range
  | some op => if op.isScalar then f.shape.bound else f.shape
  | none => f.shape

/-- The shape expected under the operator that a value names.  The comparisons are looked up by
key, which a list or a map cannot be. -/
def expected (f : Field) (operator : Value) : Except Misuse Shape :=
  if operator.isKey then .ok (f.expectedFor (Operator.ofValue? operator)) else .error .kind

/-- Whether a value is one of the choices of a field. -/
def isChoice (f : Field) (v : Value) : Bool :=
  match v with
  | .text s => (f.choices.getD []).any fun c => c.text? == some s
  | _ => false

end Field

namespace Value

def isText (v : Value) : Bool := v.text?.isSome

def isNumber (v : Value) : Bool := v.extent?.isSome

def isWithin (low high : Int) (v : Value) : Bool :=
  match v.extent? with
  | some x => decide (Extent.ofInt low ≤ x) && decide (x ≤ Extent.ofInt high)
  | none => false

def isPositive (v : Value) : Bool :=
  match v.extent? with
  | some x => !decide (x ≤ Extent.ofInt 0)
  | none => false

def isGeoPoint : Value → Bool
  | map es =>
    (Entries.get es "lat").isWithin (-90) 90 && (Entries.get es "lng").isWithin (-180) 180
  | _ => false

def isGeoRadius : Value → Bool
  | map es => (map es).isGeoPoint && (Entries.get es "radiusKm").isPositive
  | _ => false

/-- Whether a value is a sequence of at least one item, all of which pass a test. -/
def isListOf (p : Value → Bool) (v : Value) : Bool :=
  match v.sequence? with
  | some xs => !xs.isEmpty && xs.all p
  | none => false

def isNumberRange (v : Value) : Bool :=
  match v.sequence? with
  | some [a, b] =>
    match a.extent?, b.extent? with
    | some x, some y => decide (x ≤ y)
    | _, _ => false
  | _ => false

def isDateRange (v : Value) : Except Misuse Bool :=
  match v.sequence? with
  | some [a, b] => do
    let start ← Date.read a
    let stop ← Date.read b
    match start, stop with
    | some x, some y => return x.le y
    | _, _ => return false
  | _ => return false

end Value

/-- Whether a value has a shape; the choices are those of a field. -/
def Shape.admits (s : Shape) (f : Field) (v : Value) : Except Misuse Bool :=
  match s with
  | .text => .ok v.isText
  | .textList => .ok (v.isListOf Value.isText)
  | .number => .ok v.isNumber
  | .numberRange => .ok v.isNumberRange
  | .numberList => .ok (v.isListOf Value.isNumber)
  | .choice => .ok (f.isChoice v)
  | .choiceList => .ok (v.isListOf f.isChoice)
  | .truth => .ok (v matches .bool _)
  | .date => (Date.read v).map Option.isSome
  | .dateRange => v.isDateRange
  | .geoPoint => .ok v.isGeoPoint
  | .geoRadius => .ok v.isGeoRadius

def Field.admits (f : Field) (v operator : Value) : Except Misuse Bool := do
  (← f.expected operator).admits f v

end Cohort
