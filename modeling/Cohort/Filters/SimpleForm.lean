import Cohort.Catalog.Basic
import Cohort.Expression.Basic

/-!
# The simple form

The simple form of filters is a nest of sections whose leaves are lists, texts,
ranges and toggles.  Every leaf that is filled in becomes one condition, all of
them under a single AND.  `SimpleForm.leaves` lists the leaves in the order of
the conditions; the leaves about business contacts count only where those are
asked for.
-/

namespace Cohort.SimpleForm

/-- How a leaf becomes a condition. -/
inductive LeafKind where
  /-- The leaf is the value. -/
  | value (operator : Operator)
  /-- The leaf has two bounds; zero and the ceiling stand for a missing one. -/
  | range (ceiling : Int)
  /-- The leaf picks one of two operators. -/
  | toggle
  deriving DecidableEq, Repr

/-- A leaf, the way to it, and the field that it is about. -/
structure Leaf where
  path : List String
  field : String
  kind : LeafKind
  deriving DecidableEq, Repr

namespace Leaf

def name (l : Leaf) : String := ".".intercalate l.path

def isBusiness (l : Leaf) : Bool := l.path.take 2 == ["audience", "businessProfile"]

end Leaf

def business (name field : String) (kind : LeafKind) : Leaf :=
  ⟨["audience", "businessProfile", name], field, kind⟩

def leaves : List Leaf := [
  business "companyName" "business.company_name" (.value .contains),
  business "jobTitle" "business.job_title" (.value .contains),
  business "seniority" "business.seniority" (.value .isIn),
  business "department" "business.department" (.value .isIn),
  business "employeeCount" "business.employee_count" (.range 1000000),
  business "revenue" "business.revenue" (.range 1000000000),
  business "industry" "business.industry" (.value .isIn),
  ⟨["segment"], "intent.topics", .value .matchAny⟩,
  ⟨["daysBack"], "date.days_back", .value .eq⟩,
  ⟨["financial", "estimatedIncome"], "financial.estimated_income", .range 1000000⟩,
  ⟨["financial", "creditScore"], "financial.credit_score", .range 850⟩,
  ⟨["financial", "investmentAssets"], "financial.investment_assets", .range 100000000⟩,
  ⟨["personal", "age"], "personal.age", .range 120⟩,
  ⟨["personal", "gender"], "personal.gender", .value .isIn⟩,
  ⟨["personal", "education"], "personal.education", .value .isIn⟩,
  ⟨["personal", "maritalStatus"], "personal.marital_status", .value .isIn⟩,
  ⟨["family", "childrenCount"], "family.children_count", .range 20⟩,
  ⟨["family", "householdSize"], "family.household_size", .range 20⟩,
  ⟨["family", "hasChildren"], "family.has_children", .toggle⟩,
  ⟨["housing", "ownershipStatus"], "housing.ownership_status", .value .isIn⟩,
  ⟨["housing", "propertyType"], "housing.property_type", .value .isIn⟩,
  ⟨["housing", "homeValue"], "housing.home_value", .range 100000000⟩,
  ⟨["location", "country"], "location.country", .value .isIn⟩,
  ⟨["location", "region"], "location.region", .value .isIn⟩,
  ⟨["location", "city"], "location.city", .value .isIn⟩,
  ⟨["location", "zipCode"], "location.zip_code", .value .isIn⟩,
  ⟨["contact", "hasEmail"], "contact.has_email", .toggle⟩,
  ⟨["contact", "hasPhone"], "contact.has_phone", .toggle⟩,
  ⟨["contact", "hasLinkedin"], "contact.has_linkedin", .toggle⟩,
  ⟨["contact", "hasFacebook"], "contact.has_facebook", .toggle⟩,
  ⟨["contact", "hasTwitter"], "contact.has_twitter", .toggle⟩]

/-- The value that a way through maps leads to, null where it breaks off. -/
def reach (form : Value) : List String → Value
  | [] => form
  | key :: path => reach ((form.get? key).getD .null) path

def isBlank : Value → Bool
  | .null => true
  | .text s => s.isEmpty
  | .list xs => xs.isEmpty
  | .tuple xs => xs.isEmpty
  | _ => false

/-- A value, or another one in the place of null. -/
def orElse (v other : Value) : Value :=
  match v with
  | .null => other
  | v => v

/-- The pair of bounds of a range, if at least one is given. -/
def bounds? (ceiling : Int) : Value → Option Value
  | .map es =>
    match Entries.get es "min", Entries.get es "max" with
    | .null, .null => none
    | low, high => some (.list [orElse low (.int 0), orElse high (.int ceiling)])
  | _ => none

/-- The operator and the value of the condition of a leaf that is filled in. -/
def Leaf.test? (l : Leaf) (raw : Value) : Option (Operator × Value) :=
  match l.kind with
  | .range ceiling => (bounds? ceiling raw).map (.between, ·)
  | .toggle => some (if raw.truthy then .isTrue else .isFalse, .bool true)
  | .value op => some (op, match raw with
    | .tuple xs => .list xs
    | v => v)

/-- Why a leaf that is filled in has no condition. -/
inductive Skip where
  | unregistered
  | noBounds (raw : Value)

/-- The note about a skipped leaf. -/
def Skip.message (l : Leaf) : Skip → Except Misuse String
  | .unregistered =>
    return "Simple field " ++ l.name ++ " maps to unregistered " ++ l.field ++ ", skipped"
  | .noBounds raw =>
    return "Simple field " ++ l.name ++ " has no min/max bounds (" ++ (← raw.literal)
      ++ "), skipped"

/-- What becomes of a leaf. -/
inductive Adapted where
  | blank
  | condition (c : Condition)
  | skipped (s : Skip)

def asksBusiness (form : Value) : Bool := (reach form ["audience", "b2b"]).truthy

/-- What becomes of a leaf of a form. -/
def adapt (cat : Catalog) (form : Value) (l : Leaf) : Adapted :=
  if l.isBusiness && !asksBusiness form then .blank
  else
    let raw := reach form l.path
    if isBlank raw then .blank
    else match cat.find? (.text l.field) with
      | none => .skipped .unregistered
      | some f =>
        match l.test? raw with
        | none => .skipped (.noBounds raw)
        | some (op, v) => .condition {
            field := .text l.field
            operator := .text op.id
            value := v
            category := .text f.category.id }

/-- An adaptation under way; the notes about the leaves skipped so far outlive a misuse. -/
abbrev Adapting := ExceptT Misuse (StateM (List String))

/-- The conditions of the leaves that have one.  A leaf that is skipped is noted, and a note that
cannot be written ends the adaptation. -/
def adaptAll (cat : Catalog) (form : Value) : List Leaf → Adapting (List Condition)
  | [] => return []
  | l :: ls => do
    match adapt cat form l with
    | .blank => adaptAll cat form ls
    | .condition c => return c :: (← adaptAll cat form ls)
    | .skipped s =>
      let note ← ExceptT.mk (pure (s.message l))
      modify (· ++ [note])
      adaptAll cat form ls

/-- The expression of a form, or the reason that there is none, and the notes left on the way. -/
structure Adaptation where
  expression : Except Misuse Expression
  notes : List String

/-- Adapts a form: one condition for each leaf that has one. -/
def adaptation (cat : Catalog) (form : Value) : Adaptation :=
  let (conditions, notes) := (adaptAll cat form leaves).run.run []
  { expression := conditions.map fun cs => { children := cs.map .condition }, notes }

def toExpression (cat : Catalog) (form : Value) : Except Misuse Expression :=
  (adaptation cat form).expression

end Cohort.SimpleForm
