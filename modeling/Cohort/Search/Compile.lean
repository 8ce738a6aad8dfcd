import Cohort.Catalog.Basic
import Cohort.Expression.Basic
import Cohort.Search.Literal

/-!
# Compiling to a search filter

A condition becomes a filter text, or is skipped because its field is not
indexed, or is dropped for a reason, with a warning that is kept.  A group joins
the filters of its children; one without any matches everything.

Where a path, a literal or a warning cannot be written, there is no filter at
all.
-/

namespace Cohort.Search

/-- Why a condition has no filter although it should. -/
inductive DropCause where
  | unknownField
  | unknownOperator
  | malformedValue
  deriving DecidableEq, Repr

namespace DropCause

def message (c : Condition) : DropCause → Except Misuse String
  | unknownField => return "Unknown field " ++ (← c.field.literal) ++ ", condition ignored"
  | unknownOperator =>
    return "Unknown operator " ++ (← c.operator.literal) ++ " on " ++ (← c.field.display)
      ++ ", condition ignored"
  | malformedValue =>
    return "Malformed value for " ++ (← c.field.display) ++ " " ++ (← c.operator.display) ++ ": "
      ++ (← c.value.literal) ++ ", condition ignored"

end DropCause

/-- What becomes of a condition. -/
inductive Outcome where
  | filter (text : String)
  /-- The field is not indexed; the other side carries the condition. -/
  | skipped
  | dropped (cause : DropCause)

def matchAll : String := "(*:*)"

def comparison? : Operator → Option String
  | .eq => some ":="
  | .neq => some ":!="
  | .gt => some ":>"
  | .gte => some ":>="
  | .lt => some ":<"
  | .lte => some ":<="
  | _ => none

def literals (separator : String) (vs : List Value) : Except Misuse String :=
  return separator.intercalate (← vs.mapM literal)

def test (path : Value) (text : Except Misuse String) : Except Misuse (Option String) :=
  return some ((← path.display) ++ (← text))

/-- A test with a sign in front of the literal of a value. -/
def signed (path : Value) (sign : String) (v : Value) : Except Misuse (Option String) :=
  test path ((literal v).map (sign ++ ·))

/-- A membership test; a single value is compared, and the empty list has no filter. -/
def member? (negated : Bool) (path v : Value) : Except Misuse (Option String) :=
  match v.sequence? with
  | none => signed path (if negated then ":!=" else ":=") v
  | some [] => return none
  | some items => return some ((if negated then "!" else "") ++ (← path.display) ++ ":["
      ++ (← literals ", " items) ++ "]")

def matchAny? (path v : Value) : Except Misuse (Option String) :=
  match v.sequence? with
  | none => signed path ":" v
  | some [] => return none
  | some items => test path ((literals " || " items).map (":" ++ ·))

/-- The filter of an operator on a path of the index, if the value fits the operator. -/
def lower? (op : Operator) (path v : Value) : Except Misuse (Option String) :=
  match op with
  | .isIn => member? false path v
  | .notIn => member? true path v
  | .contains | .containsAnyCase | .matchText => signed path ":" v
  | .startsWith => test path ((literal v).map (":" ++ · ++ "*"))
  | .endsWith => signed path ":*" v
  | .between =>
    match v.sequence? with
    | some [low, high] =>
      test path do return ":[" ++ (← literal low) ++ ".." ++ (← literal high) ++ "]"
    | _ => return none
  | .present => test path (return ":!=''")
  | .absent => test path (return ":=''")
  | .isTrue => test path (return ":=true")
  | .isFalse => test path (return ":=false")
  | .matchAny => matchAny? path v
  | .withinRadius =>
    match v.get? "lat", v.get? "lng", v.get? "radiusKm" with
    | some lat, some lng, some radius =>
      test path ((literals ", " [lat, lng, radius]).map (":[" ++ · ++ " km]"))
    | _, _, _ => return none
  | op =>
    match comparison? op with
    | some sign => signed path sign v
    | none => return none

/-- What becomes of a condition, its negation left aside. -/
def outcome (cat : Catalog) (c : Condition) : Except Misuse Outcome :=
  match cat.find? c.field with
  | none => return .dropped .unknownField
  | some f =>
    if !f.searchPath.truthy then return .skipped
    else match Operator.ofValue? c.operator with
      | none => return .dropped .unknownOperator
      | some op => do
        match ← lower? op f.searchPath c.value with
        | some text => return .filter text
        | none => return .dropped .malformedValue

def join (op : Connective) (parts : List String) : String :=
  (match op with | .and => " && " | .or => " || ").intercalate (parts.map fun p => "(" ++ p ++ ")")

def groupFilter (op : Connective) (negated : Bool) : List String → String
  | [] => matchAll
  | [p] => if negated then "!(" ++ p ++ ")" else join op [p]
  | parts => if negated then "!(" ++ join op parts ++ ")" else join op parts

/-- A compilation under way; the conditions found dropped so far outlive a misuse. -/
abbrev Compiling := ExceptT Misuse (StateM (List (Omission DropCause)))

/-- Compiles a condition; one that is dropped is noted. -/
def condition (cat : Catalog) (c : Condition) : Compiling (Option String) := do
  match ← ExceptT.mk (pure (outcome cat c)) with
  | .filter text => return some (if c.negated then "!(" ++ text ++ ")" else text)
  | .skipped => return none
  | .dropped cause =>
    let warning ← ExceptT.mk (pure (cause.message c))
    modify (· ++ [⟨c, cause, warning⟩])
    return none

mutual

def node (cat : Catalog) : Node → Compiling (Option String)
  | .condition c => condition cat c
  | .group op cs negated => do
    let parts ← nodes cat cs
    return some (groupFilter op negated parts)

/-- Compiles nodes, one after the other, to the filters of those that have one. -/
def nodes (cat : Catalog) : List Node → Compiling (List String)
  | [] => return []
  | n :: ns => do
    let part ← node cat n
    let parts ← nodes cat ns
    return part.toList ++ parts

end

/-- A filter, or the reason that there is none, and the conditions found dropped on the way. -/
structure Compilation where
  filter : Except Misuse String
  dropped : List (Omission DropCause)

def compile (cat : Catalog) (e : Expression) : Compilation :=
  let (parts, dropped) := (nodes cat e.children).run.run []
  { filter := parts.map (groupFilter e.connective e.negated), dropped }

def filter (cat : Catalog) (e : Expression) : Except Misuse String := (compile cat e).filter

end Cohort.Search
