import Cohort.Catalog.Field
import Cohort.Value.Text

/-!
# Catalogs

A catalog is the list of the fields there are, in the order of their
registration, with distinct keys.  It is built from raw entries one by one:
each entry is converted and then held against the fields before it, and the
first entry that fails settles the error.
-/

namespace Cohort

structure Catalog where
  version : Value := .null
  fields : List Field := []

/-- Why a catalog cannot be built. -/
inductive CatalogError where
  | unreadable (path : String)
  | noFieldList (path : String)
  | missing (name : String) (entry : Value)
  | notCategory (key value : Value)
  | notShape (key value : Value)
  | duplicateKey (key : Value)
  | noOperators (key : Value)
  | unknownOperators (key : Value) (operators : List Value)
  | repeatedOperator (key : Value)
  | noChoices (key : Value)
  | unexpectedChoices (key : Value)
  | misuse (m : Misuse)

namespace CatalogError

/-- Why a value names no member of a kind.  Where the value itself cannot be written, that is told
instead. -/
def notNamed (kind : String) (v : Value) : String :=
  match v.literal with
  | .ok text => text ++ " is not a valid " ++ kind
  | .error _ => Decimal.Layout.tooManyDigits

/-- The message of an error.  An error whose message cannot be written is not told: what is met in
its place is the misuse of writing it. -/
def message : CatalogError → Except Misuse String
  | unreadable path => return "Cannot load field registry from " ++ path
  | noFieldList path => return "Field registry " ++ path ++ " has no 'fields' list"
  | missing name entry =>
    return "Field entry missing " ++ Text.quoted name ++ ": " ++ (← entry.literal)
  | notCategory key v =>
    return "Invalid field entry " ++ (← key.literal) ++ ": " ++ notNamed "Category" v
  | notShape key v =>
    return "Invalid field entry " ++ (← key.literal) ++ ": " ++ notNamed "ValueType" v
  | duplicateKey key => return "Duplicate field key: " ++ (← key.display)
  | noOperators key => return "Field " ++ (← key.display) ++ " has no allowed operators"
  | unknownOperators key ops =>
    return "Field " ++ (← key.display) ++ " lists unknown operators: "
      ++ (← (Value.list ops).literal)
  | repeatedOperator key => return "Field " ++ (← key.display) ++ " lists an operator twice"
  | noChoices key => return "Enum field " ++ (← key.display) ++ " must declare enum_values"
  | unexpectedChoices key => return "Non-enum field " ++ (← key.display) ++ " declares enum_values"
  | misuse m => .error m

end CatalogError

/-- An entry of a list of fields: as it is shown, and its parts if it is a map. -/
structure RawEntry where
  shown : Value
  parts : Option Entries

def RawEntry.ofValue (v : Value) : RawEntry where
  shown := v
  parts := match v with
    | .map es => some es
    | _ => none

/-- An entry whose category and shape are known, and whose operators are still to be checked. -/
structure FieldDraft where
  key : Value
  label : Value
  category : Category
  shape : Shape
  operators : List Value
  column : Value
  searchPath : Value
  choices : Option (List Value)
  description : Value

namespace FieldDraft

/-- The value under a name that an entry must have; `shown` is the entry as it is shown. -/
def require (shown : Value) (es : Entries) (name : String) : Except CatalogError Value :=
  match es.get? name with
  | some v => .ok v
  | none => .error (.missing name shown)

/-- The parts of a value that has parts. -/
def parts (v : Value) : Except CatalogError (List Value) :=
  match v.parts? with
  | some xs => .ok xs
  | none => .error (.misuse .kind)

def ofParts (shown : Value) (es : Entries) : Except CatalogError FieldDraft := do
  let key ← require shown es "key"
  let rawCategory ← require shown es "category"
  let some category := Category.ofValue? rawCategory | throw (.notCategory key rawCategory)
  let rawShape ← require shown es "value_type"
  let some shape := Shape.ofValue? rawShape | throw (.notShape key rawShape)
  let operators ← parts (← require shown es "operators")
  let choices ← match es.get "enum_values" with
    | .null => pure none
    | v => some <$> parts v
  return {
    key, category, shape, operators, choices
    label := (es.get? "label").getD key
    column := (es.get? "relational").getD key
    searchPath := es.get "search"
    description := (es.get? "description").getD (.text "")
  }

def ofEntry (e : RawEntry) : Except CatalogError FieldDraft :=
  match e.parts with
  | some es => ofParts e.shown es
  | none => .error (.misuse .kind)

def toField (d : FieldDraft) (operators : List Operator) : Field where
  key := d.key
  label := d.label
  category := d.category
  shape := d.shape
  operators := operators
  column := d.column
  searchPath := d.searchPath
  choices := d.choices
  description := d.description

/-- The operators of a draft, if there are some, all are known and none is listed twice. -/
def checkOperators (d : FieldDraft) : Except CatalogError (List Operator) := do
  if d.operators.isEmpty then throw (.noOperators d.key)
  let known ← d.operators.mapM fun v => (Operator.known v).mapError CatalogError.misuse
  let unknown := (d.operators.zip known).filterMap fun p => if p.2 then none else some p.1
  if !unknown.isEmpty then throw (.unknownOperators d.key unknown)
  let operators := d.operators.filterMap Operator.ofValue?
  if !operators.Nodup then throw (.repeatedOperator d.key)
  return operators

/-- Closed shapes have choices and other shapes have none. -/
def checkChoices (d : FieldDraft) : Except CatalogError Unit :=
  if d.shape.isClosed && (d.choices.getD []).isEmpty then .error (.noChoices d.key)
  else if !d.shape.isClosed && d.choices.isSome then .error (.unexpectedChoices d.key)
  else .ok ()

end FieldDraft

/-- What a document says about a catalog. -/
inductive Manifest where
  /-- The document is empty. -/
  | blank
  /-- The document is no map. -/
  | unfit
  /-- The version, and the entries if the fields are a list. -/
  | map (version : Value) (entries : Option (List RawEntry))

namespace Catalog

def hasKey (c : Catalog) (key : Value) : Bool := c.fields.any fun f => f.key.sameKey key

def add (c : Catalog) (d : FieldDraft) : Except CatalogError Catalog := do
  if !d.key.isKey then throw (.misuse .kind)
  if c.hasKey d.key then throw (.duplicateKey d.key)
  let operators ← d.checkOperators
  d.checkChoices
  return { c with fields := c.fields ++ [d.toField operators] }

def addEntry (c : Catalog) (entry : RawEntry) : Except CatalogError Catalog := do
  c.add (← FieldDraft.ofEntry entry)

def ofRawEntries (version : Value) (entries : List RawEntry) : Except CatalogError Catalog :=
  entries.foldlM addEntry { version := version }

def ofEntries (version : Value) (entries : List Value) : Except CatalogError Catalog :=
  ofRawEntries version (entries.map RawEntry.ofValue)

def ofManifest (path : String) : Manifest → Except CatalogError Catalog
  | .blank => .error (.noFieldList path)
  | .unfit => .error (.misuse .part)
  | .map version (some entries) => ofRawEntries version entries
  | .map _ none => .error (.noFieldList path)

def find? (c : Catalog) (key : Value) : Option Field :=
  match key with
  | .text s => c.fields.find? fun f => f.key.text? == some s
  | _ => none

theorem mem_fields_of_find? {cat : Catalog} {key : Value} {f : Field}
    (h : cat.find? key = some f) : f ∈ cat.fields := by
  cases key <;> simp only [find?, reduceCtorEq] at h
  exact List.mem_of_find?_eq_some h

def contains (c : Catalog) (key : Value) : Bool := (c.find? key).isSome

def inCategory (c : Catalog) (category : Category) : List Field :=
  c.fields.filter (·.category == category)

/-- The fields of the category that a value names; there are none if it names no category. -/
def inNamedCategory (c : Catalog) (name : Value) : List Field :=
  ((Category.ofValue? name).map c.inCategory).getD []

def categories (c : Catalog) : List Category :=
  (c.fields.foldl (fun seen f => if seen.contains f.category then seen else f.category :: seen)
    []).reverse

def isBusiness (c : Catalog) (key : Value) : Bool :=
  (c.find? key).any (·.category == .business)

def inputKind (c : Catalog) (key : Value) : String :=
  ((c.find? key).map (·.shape.inputKind)).getD "string"

def literal (c : Catalog) : Except Misuse String :=
  return "FieldRegistry(version=" ++ (← c.version.literal) ++ ", fields="
    ++ Decimal.Layout.digits c.fields.length ++ ")"

end Catalog

end Cohort
