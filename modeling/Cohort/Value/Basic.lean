import Cohort.Date.Stamp
import Cohort.Decimal.Binary

/-!
# Values

The dynamic values that a condition tests against, that a stored document is
made of and that a query is run with.  Stamps, bytes, sets and loops come from
catalog files alone.  Maps keep the order of their entries; their keys are values
as well, since a catalog file may use any scalar as one.
-/

namespace Cohort

inductive Value where
  | null
  | bool (b : Bool)
  | int (n : Int)
  | float (x : Float)
  | text (s : String)
  | list (items : List Value)
  | tuple (items : List Value)
  | map (entries : List (Value × Value))
  | stamp (s : Date.Stamp)
  | bytes (bs : List UInt8)
  | set (members : List Value)
  /-- Stands inside of a collection for that collection, a map or a list. -/
  | loop (isMap : Bool)
  deriving Inhabited

abbrev Entries := List (Value × Value)

namespace Value

/-- Whether a value counts as present: zeros, empty texts and empty collections do not. -/
def truthy : Value → Bool
  | null => false
  | bool b => b
  | int n => n != 0
  | float x => !(Decimal.Binary.ofFloat x).isZero
  | text s => !s.isEmpty
  | list xs => !xs.isEmpty
  | tuple xs => !xs.isEmpty
  | map es => !es.isEmpty
  | stamp _ => true
  | bytes bs => !bs.isEmpty
  | set xs => !xs.isEmpty
  | loop _ => true

def kindName : Value → String
  | null => "NoneType"
  | bool _ => "bool"
  | int _ => "int"
  | float _ => "float"
  | text _ => "str"
  | list _ => "list"
  | tuple _ => "tuple"
  | map _ => "dict"
  | stamp (.day ..) => "date"
  | stamp (.moment ..) => "datetime"
  | bytes _ => "bytes"
  | set _ => "set"
  | loop isMap => if isMap then "dict" else "list"

def text? : Value → Option String
  | text s => some s
  | _ => none

def sequence? : Value → Option (List Value)
  | list xs => some xs
  | tuple xs => some xs
  | _ => none

/-- The parts of a value that can be walked through: items, characters, bytes or keys. -/
def parts? : Value → Option (List Value)
  | list xs => some xs
  | tuple xs => some xs
  | text s => some (s.toList.map fun c => text (String.singleton c))
  | map es => some (es.map (·.1))
  | bytes bs => some (bs.map fun b => int b.toNat)
  | set xs => some xs
  | _ => none

/-- The place of a number on the extended line; truth values are no numbers. -/
def extent? : Value → Option Decimal.Extent
  | int n => some (.ofInt n)
  | float x => Decimal.Extent.ofFloat? x
  | _ => none

/-- Whether a value may be a key: scalars, and tuples of such values. -/
def isKey : Value → Bool
  | list _ => false
  | map _ => false
  | set _ => false
  | loop _ => false
  | tuple xs => go xs
  | _ => true
where
  go : List Value → Bool
    | [] => true
    | x :: xs => x.isKey && go xs

/-- The place of a number or truth value; truth values stand at zero and one. -/
def keyExtent? : Value → Option Decimal.Extent
  | bool b => some (.ofInt b.toNat)
  | v => v.extent?

/-- Whether two keys are the same: numbers by their value, texts, bytes and tuples by their parts,
stamps by their time. -/
def sameKey : Value → Value → Bool
  | null, null => true
  | text a, text b => a == b
  | tuple xs, tuple ys => go xs ys
  | stamp a, stamp b => a.same b
  | bytes a, bytes b => a == b
  | a, b =>
    match a.keyExtent?, b.keyExtent? with
    | some x, some y => x == y
    | _, _ => false
where
  go : List Value → List Value → Bool
    | [], [] => true
    | x :: xs, y :: ys => x.sameKey y && go xs ys
    | _, _ => false

@[simp] theorem truthy_text (s : String) : truthy (text s) = !s.isEmpty := rfl

theorem sameKey_text_iff {v : Value} {s : String} : v.sameKey (text s) = true ↔ v = text s := by
  cases v <;> simp [sameKey, keyExtent?, extent?]

end Value

namespace Entries

def get? (es : Entries) (key : String) : Option Value :=
  match es with
  | [] => none
  | (k, v) :: rest => if k.text? = some key then some v else get? rest key

/-- The value under a text key, null if there is none. -/
def get (es : Entries) (key : String) : Value := (es.get? key).getD .null

def has (es : Entries) (key : String) : Bool := (es.get? key).isSome

/-- Writes a value under a key: a present key keeps its place, a new one goes to the end. -/
def put (es : Entries) (key v : Value) : Entries :=
  match es with
  | [] => [(key, v)]
  | (k, w) :: rest => if k.sameKey key then (k, v) :: rest else (k, w) :: put rest key v

def ofPairs (pairs : List (Value × Value)) : Entries :=
  pairs.foldl (fun es e => put es e.1 e.2) []

@[simp] theorem get?_nil (key : String) : get? [] key = none := rfl

end Entries

namespace Value

def get? (v : Value) (key : String) : Option Value :=
  match v with
  | map es => Entries.get? es key
  | _ => none

end Value

end Cohort
