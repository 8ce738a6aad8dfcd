import Cohort.Filters.SimpleForm
import Cohort.Json.Encode
import Cohort.Preview.Store
import Cohort.Search.Compile

/-!
# The service

The whole way from stored filters to queries: stored filters are resolved to
one expression, which is validated, compiled for the table and for the search
index, and run against the preview store.  In strict mode an expression with
violations goes no further.
-/

namespace Cohort

structure Service where
  catalog : Catalog
  strict : Bool := true
  slots : Sql.SlotStyle := .question
  maxDepth : Int := 10
  store : Option Store := none

/-- Filters as they are handed in: stored ones, or an envelope that is already read. -/
inductive FiltersInput where
  | stored (v : Value)
  | envelope (e : Envelope)

/-- The queries of an expression for the table and for the search index. -/
structure CompiledQueries where
  clause : String
  params : List Value
  filter : String

namespace CompiledQueries

def toValue (q : CompiledQueries) : Value :=
  .map [(.text "pgWhere", .text q.clause), (.text "pgParams", .list q.params),
    (.text "typesenseFilter", .text q.filter)]

end CompiledQueries

namespace Service

open Cohort.Action

def envelopeNames : List String := ["mode", "simple", "boolean"]

def namesEnvelope (vs : List Value) : Bool :=
  vs.any fun v => v.text?.any envelopeNames.contains

def reading (s : Service) : Reading where
  maxDepth := s.maxDepth
  catalog := some s.catalog

/-- Reads stored filters: an envelope, or a bare simple form. -/
def load (s : Service) : FiltersInput → Except Failure Envelope
  | .envelope e => .ok e
  | .stored v =>
    if !v.truthy then .ok {}
    else match v.parts? with
      | none => .error (.misuse .kind)
      | some names =>
        if !names.all Value.isKey then .error (.misuse .kind)
        else if namesEnvelope names then (Envelope.ofValue s.reading v).mapError .ofEnvelope
        else match v.toEntries with
          | .ok es => .ok { simple := es }
          | .error m => .error (.misuse m)

/-- The expression of an envelope, with the notes that finding it leaves: the tree in boolean mode,
else that of the simple form. -/
def adaptationOf (s : Service) (e : Envelope) : SimpleForm.Adaptation :=
  match e.mode, e.expression with
  | .boolean, some x => { expression := .ok x, notes := [] }
  | _, _ => SimpleForm.adaptation s.catalog (.map e.simple)

def expressionOf (s : Service) (e : Envelope) : Except Misuse Expression :=
  (s.adaptationOf e).expression

/-- The expression of filters. -/
def resolve (s : Service) (f : FiltersInput) : Action Expression := do
  let e ← liftExcept (s.load f)
  let a := s.adaptationOf e
  logAll .debug Log.simpleLogger a.notes
  orMisuse a.expression
where
  liftExcept (r : Except Failure Envelope) : Action Envelope :=
    match r with
    | .ok e => pure e
    | .error f => throw f

def validate (s : Service) (e : Expression) : Action (List Violation) :=
  orMisuse (s.catalog.validate e)

def rejection (vs : List Violation) : Except Misuse String :=
  return "Rejected expression with " ++ Decimal.Layout.digits vs.length
    ++ " violation(s) | Context: "
    ++ (← Json.encode (.map [(.text "violations", .list (vs.map fun v => .text v.message))]))

def demandValid (s : Service) (e : Expression) : Action Unit := do
  let vs ← s.validate e
  if !vs.isEmpty then
    log .warning Log.serviceLogger (← orMisuse (rejection vs))
    throw (.rejected vs)

def gate (s : Service) (e : Expression) : Action Unit :=
  if s.strict then s.demandValid e else pure ()

def clause (s : Service) (d : Sql.Dialect) (e : Expression) : Action Sql.Query := do
  let c := Sql.compile d s.catalog e
  logAll .warning Log.relationalLogger (c.degraded.map (·.warning))
  orMisuse c.query

def searchFilter (s : Service) (e : Expression) : Action String := do
  let c := Search.compile s.catalog e
  logAll .warning Log.searchLogger (c.dropped.map (·.warning))
  orMisuse c.filter

def compile (s : Service) (e : Expression) : Action CompiledQueries := do
  s.gate e
  let q ← s.clause { slots := s.slots } e
  let filter ← s.searchFilter e
  log .debug Log.serviceLogger
    ("Compiled expression: where=" ++ Text.quoted q.text ++ " params="
      ++ Decimal.Layout.digits q.params.length ++ " search=" ++ Text.quoted filter)
  return ⟨q.text, q.params, filter⟩

def compileFilters (s : Service) (f : FiltersInput) : Action CompiledQueries := do
  s.compile (← s.resolve f)

def demandStore (s : Service) : Action Store :=
  match s.store with
  | some store => pure store
  | none => throw .noStore

def previewQuery (s : Service) (f : FiltersInput) : Action Sql.Query := do
  let e ← s.resolve f
  s.gate e
  s.clause .preview e

def preview (s : Service) (answers : Answers) (f : FiltersInput) (limit offset select : Value) :
    Action Page := do
  let store ← s.demandStore
  let q ← s.previewQuery f
  let page ← store.page answers q.text (.list q.params) limit offset select
  log .info Log.serviceLogger
    ("Preview returned " ++ Decimal.Layout.digits page.rows.length ++ " rows")
  return page

def count (s : Service) (answers : Answers) (f : FiltersInput) : Action Value := do
  let store ← s.demandStore
  let q ← s.previewQuery f
  let n ← store.total answers q.text (.list q.params)
  log .info Log.serviceLogger ("Audience count: " ++ (← orMisuse n.display))
  return n

/-- Creates the table of the preview store, if there is one. -/
def prepare (s : Service) (answers : Answers) : Action Unit :=
  match s.store with
  | some store => store.prepare answers
  | none => pure ()

end Service

end Cohort
