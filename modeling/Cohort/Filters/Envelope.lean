import Cohort.Expression.Stored
import Cohort.Value.Convert

/-!
# Envelopes

The stored filters of an audience hold both forms, the simple one and the tree;
the mode says which of them counts.
-/

namespace Cohort

inductive FilterMode where
  | simple
  | boolean
  deriving DecidableEq, Repr

namespace FilterMode

def id : FilterMode → String
  | simple => "simple"
  | boolean => "boolean"

def ofValue? (v : Value) : Option FilterMode :=
  v.text?.bind fun s =>
    if s = "simple" then some simple else if s = "boolean" then some boolean else none

end FilterMode

structure Envelope where
  mode : FilterMode := .simple
  simple : Entries := []
  expression : Option Expression := none

/-- Why an envelope cannot be read. -/
inductive EnvelopeFault where
  | unknownMode (raw : Value)
  | expression (e : Malformed)
  | misuse (m : Misuse)

namespace Envelope

/-- The stored expression of an envelope, null if there is none. -/
def storedExpression (es : Entries) : Value :=
  ((es.get "boolean").get? "expression").getD .null

/-- Reads the entries of an envelope: the mode first, then the tree, then the simple form. -/
def ofEntries (r : Reading) (es : Entries) : Except EnvelopeFault Envelope := do
  let raw := (es.get? "mode").getD (.text "simple")
  let some mode := FilterMode.ofValue? raw | throw (.unknownMode raw)
  let expression ← match storedExpression es with
    | .null => pure none
    | v => ((r.read v).map some).mapError .expression
  let rawSimple := es.get "simple"
  let simple ← if rawSimple.truthy then rawSimple.toEntries.mapError .misuse else pure []
  return { mode, simple, expression }

/-- Reads an envelope; an empty value is the envelope without filters. -/
def ofValue (r : Reading) (v : Value) : Except EnvelopeFault Envelope :=
  if !v.truthy then .ok {}
  else match v with
    | .map es => ofEntries r es
    | _ => .error (.misuse .part)

def toValue (e : Envelope) : Value :=
  .map ([(.text "mode", .text e.mode.id), (.text "simple", .map e.simple)] ++
    match e.expression with
    | some x => [(.text "boolean", .map [(.text "expression", x.toValue)])]
    | none => [])

end Envelope

end Cohort
