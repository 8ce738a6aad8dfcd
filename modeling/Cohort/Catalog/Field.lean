import Cohort.Operator

/-!
# Fields

What a catalog knows about a field that conditions can test: its category, the
shape of its values, the operators it takes, and where its values are found in
the table of contacts and in the search index.
-/

namespace Cohort

/-- The categories of fields. -/
inductive Category where
  | intent | date | business | financial | personal | family | housing | location | contact
  deriving DecidableEq, Repr

namespace Category

def id : Category → String
  | intent => "intent"
  | date => "date"
  | business => "business"
  | financial => "financial"
  | personal => "personal"
  | family => "family"
  | housing => "housing"
  | location => "location"
  | contact => "contact"

def all : List Category :=
  [intent, date, business, financial, personal, family, housing, location, contact]

theorem mem_all (c : Category) : c ∈ all := by cases c <;> decide

def ofValue? (v : Value) : Option Category := v.text?.bind fun s => all.find? (·.id == s)

@[simp] theorem ofValue?_id (c : Category) : ofValue? (.text c.id) = some c := by
  cases c <;> decide

end Category

/-- The shapes of the values that a condition on a field carries. -/
inductive Shape where
  | text | textList
  | number | numberRange | numberList
  | choice | choiceList
  | truth
  | date | dateRange
  | geoPoint | geoRadius
  deriving DecidableEq, Repr

namespace Shape

def id : Shape → String
  | text => "string"
  | textList => "string[]"
  | number => "number"
  | numberRange => "numberRange"
  | numberList => "number[]"
  | choice => "enum"
  | choiceList => "enum[]"
  | truth => "boolean"
  | date => "date"
  | dateRange => "dateRange"
  | geoPoint => "geoPoint"
  | geoRadius => "geoRadius"

def all : List Shape :=
  [text, textList, number, numberRange, numberList, choice, choiceList, truth, date, dateRange,
   geoPoint, geoRadius]

theorem mem_all (s : Shape) : s ∈ all := by cases s <;> decide

def ofValue? (v : Value) : Option Shape := v.text?.bind fun s => all.find? (·.id == s)

@[simp] theorem ofValue?_id (s : Shape) : ofValue? (.text s.id) = some s := by
  cases s <;> decide

def isClosed : Shape → Bool
  | choice | choiceList => true
  | _ => false

def range : Shape → Shape
  | number => numberRange
  | date => dateRange
  | s => s

def bound : Shape → Shape
  | numberRange => number
  | dateRange => date
  | s => s

def inputKind : Shape → String
  | number | numberRange => "number"
  | textList | numberList | choiceList => "array"
  | _ => "string"

end Shape

structure Field where
  key : Value
  label : Value
  category : Category
  shape : Shape
  /-- The permitted operators, the first of which a new condition gets. -/
  operators : List Operator
  /-- Where the values are found in the table of contacts. -/
  column : Value
  /-- Where the values are found in the search index; null for a field that is not indexed. -/
  searchPath : Value
  /-- The closed set of values, if there is one. -/
  choices : Option (List Value)
  description : Value

namespace Field

def operatorIds (f : Field) : List String := f.operators.map Operator.id

def permits (f : Field) (operator : Value) : Bool :=
  match operator with
  | .text s => f.operatorIds.contains s
  | _ => false

def defaultValue (f : Field) : Value :=
  match f.shape with
  | .number => .int 0
  | .numberRange => .list [.int 0, .int 100]
  | .choice => match f.choices with
    | some (x :: _) => x
    | _ => .text ""
  | .choiceList => match f.choices with
    | some (x :: _) => .list [x]
    | _ => .list []
  | .truth => .bool true
  | .dateRange => .list [.text "", .text ""]
  | .geoRadius =>
    .map [(.text "lat", .int 0), (.text "lng", .int 0), (.text "radiusKm", .int 10)]
  | .geoPoint => .map [(.text "lat", .int 0), (.text "lng", .int 0)]
  | .textList | .numberList => .list []
  | .text | .date => .text ""

end Field

end Cohort
