import Cohort.Catalog.Basic
import Cohort.Expression.Basic
import Cohort.Sql.Dialect

/-!
# Compiling to a clause

An expression is compiled to the text of a boolean clause and the list of its
parameters.  Parameters are bound on the way, and the text marks the place of
each one as it is bound.  A condition that has no clause, for its field, its
operator or its value, is degraded: TRUE stands in its place, what it has bound
is dropped, and a warning is kept.  A degraded condition is never negated.

Where a column, a pattern or a warning cannot be written, there is no clause at
all.
-/

namespace Cohort.Sql

/-- Why a condition has no clause. -/
inductive Degradation where
  | unknownField
  | unsupportedOperator
  | malformedValue (expectation : String)
  deriving DecidableEq, Repr

namespace Degradation

def message (c : Condition) : Degradation → Except Misuse String
  | unknownField => return "Unknown field " ++ (← c.field.literal) ++ ", condition ignored"
  | unsupportedOperator =>
    return "Operator " ++ (← c.operator.literal) ++ " on " ++ (← c.field.display)
      ++ " not supported by relational backend, condition ignored"
  | malformedValue expectation =>
    return "Malformed value for " ++ (← c.field.display) ++ " " ++ (← c.operator.display) ++ ": "
      ++ expectation ++ ", got " ++ (← c.value.literal)

end Degradation

/-- The operators that have a clause. -/
def supports : Operator → Bool
  | .matchText | .matchAny => false
  | _ => true

def comparison? : Operator → Option String
  | .eq => some "="
  | .neq => some "!="
  | .gt => some ">"
  | .gte => some ">="
  | .lt => some "<"
  | .lte => some "<="
  | _ => none

def pattern? (v : Value) : Operator → Option (Except Misuse String)
  | .contains | .containsAnyCase => some (v.display.map fun text => "%" ++ text ++ "%")
  | .startsWith => some (v.display.map fun text => text ++ "%")
  | .endsWith => some (v.display.map fun text => "%" ++ text)
  | _ => none

/-- A step that binds parameters behind those that are bound already; where it gives up, all that it
has bound is dropped. -/
abbrev Binding := StateT (List Value) (ExceptT Degradation (Except Misuse))

/-- Writes a text, or ends the compilation. -/
def write (text : Except Misuse String) : Binding String := fun bound =>
  ExceptT.mk (text.map fun t => .ok (t, bound))

def slot (d : Dialect) (v : Value) : Binding String := do
  modify (· ++ [v])
  return d.slots.mark (← get).length

def compare (d : Dialect) (column : Value) (sign : String) (v : Value) : Binding String := do
  let name ← write column.display
  let mark ← slot d v
  return name ++ " " ++ sign ++ " " ++ mark

def constant (column : Value) (test : String) : Binding String :=
  return (← write column.display) ++ test

/-- A range test.  The value is looked at before the column is written. -/
def between (d : Dialect) (column v : Value) : Binding String :=
  match v.sequence? with
  | some [low, high] => do
    let low ← slot d low
    let high ← slot d high
    return (← write column.display) ++ " BETWEEN " ++ low ++ " AND " ++ high
  | _ => throw (.malformedValue "between expects [min, max]")

/-- A membership test.  A single value is compared, and the empty list has a constant answer. -/
def member (d : Dialect) (negated : Bool) (column v : Value) : Binding String :=
  match v.sequence? with
  | none => compare d column (if negated then "!=" else "=") v
  | some [] => return if negated then "TRUE" else "FALSE"
  | some items => do
    let marks ← items.mapM (slot d)
    return (← write column.display) ++ (if negated then " NOT IN (" else " IN (")
      ++ ", ".intercalate marks ++ ")"

def withinRadius (d : Dialect) (column v : Value) : Binding String :=
  match v.get? "lat", v.get? "lng", v.get? "radiusKm" with
  | some lat, some lng, some radius => do
    let lat ← slot d lat
    let lng ← slot d lng
    let radius ← slot d radius
    return "earth_distance(ll_to_earth(" ++ lat ++ ", " ++ lng ++ "), " ++ (← write column.display)
      ++ ") <= " ++ radius ++ " * 1000"
  | _, _, _ => throw (.malformedValue "withinRadius expects \x7blat, lng, radiusKm\x7d")

def lower (d : Dialect) (op : Operator) (column v : Value) : Binding String :=
  match op with
  | .between => between d column v
  | .isIn => member d false column v
  | .notIn => member d true column v
  | .present => constant column " IS NOT NULL"
  | .absent => constant column " IS NULL"
  | .isTrue => constant column " = true"
  | .isFalse => constant column " = false"
  | .withinRadius => withinRadius d column v
  | op =>
    match comparison? op, pattern? v op with
    | some sign, _ => compare d column sign v
    | none, some p => do compare d column d.likeWord (.text (← write p))
    | none, none => throw .unsupportedOperator

def target (cat : Catalog) (c : Condition) : Except Degradation (Operator × Value) :=
  match cat.find? c.field with
  | none => .error .unknownField
  | some f =>
    match Operator.ofValue? c.operator with
    | some op => if supports op then .ok (op, f.column) else .error .unsupportedOperator
    | none => .error .unsupportedOperator

/-- What a compilation has collected: the parameters, and the conditions found degraded. -/
structure Collected where
  params : List Value := []
  degraded : List (Omission Degradation) := []

/-- A compilation under way; what it has collected outlives a misuse. -/
abbrev Compiling := ExceptT Misuse (StateM Collected)

/-- A clause, negated if asked for. -/
def negateIf (negated : Bool) (clause : String) : String :=
  if negated then "NOT (" ++ clause ++ ")" else clause

/-- Takes over the clause of a condition and what it has bound.  A condition that is degraded is
noted and taken to be true. -/
def settle (c : Condition) : Except Degradation (String × List Value) → Compiling String
  | .ok (clause, params) => do
    modify fun s => { s with params }
    return negateIf c.negated clause
  | .error reason => do
    let warning ← ExceptT.mk (pure (reason.message c))
    modify fun s => { s with degraded := s.degraded ++ [⟨c, reason, warning⟩] }
    return "TRUE"

/-- Compiles a condition.  A column is quoted before the value is looked at. -/
def condition (d : Dialect) (cat : Catalog) (c : Condition) : Compiling String := do
  match target cat c with
  | .error reason => settle c (.error reason)
  | .ok (op, name) =>
    let column ← ExceptT.mk (pure (d.column name))
    settle c (← ExceptT.mk (pure ((lower d op column c.value).run (← get).params).run))

def join (op : Connective) (clauses : List String) : String :=
  if clauses.isEmpty then "TRUE"
  else (" " ++ op.word ++ " ").intercalate (clauses.map fun c => "(" ++ c ++ ")")

mutual

def node (d : Dialect) (cat : Catalog) : Node → Compiling String
  | .condition c => condition d cat c
  | .group op cs negated => do
    let clauses ← nodes d cat cs
    return negateIf negated (join op clauses)

def nodes (d : Dialect) (cat : Catalog) : List Node → Compiling (List String)
  | [] => return []
  | n :: ns => do
    let clause ← node d cat n
    let clauses ← nodes d cat ns
    return clause :: clauses

end

/-- The text of a clause and its parameters. -/
structure Query where
  text : String
  params : List Value

/-- A query, or the reason that there is none, and the conditions found degraded on the way. -/
structure Compilation where
  query : Except Misuse Query
  degraded : List (Omission Degradation)

/-- Compiles an expression in a dialect.  It stops at the first text that cannot be written. -/
def compile (d : Dialect) (cat : Catalog) (e : Expression) : Compilation :=
  let (clause, s) := (node d cat e.toNode).run.run {}
  { query := clause.map (⟨·, s.params⟩), degraded := s.degraded }

end Cohort.Sql
