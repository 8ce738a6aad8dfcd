import Cohort.Sql.Identifier
import Cohort.Value.Text

/-!
# Dialects

What a clause leaves to the database that runs it: how columns are written,
which word matches patterns, and how the slots for parameters are marked.
-/

namespace Cohort.Sql

/-- How the slots for parameters are marked. -/
inductive SlotStyle where
  | question
  | numbered
  deriving DecidableEq, Repr

namespace SlotStyle

def id : SlotStyle → String
  | question => "qmark"
  | numbered => "numeric"

def ofId? (s : String) : Option SlotStyle :=
  if s = "qmark" then some question else if s = "numeric" then some numbered else none

def ofValue? (v : Value) : Option SlotStyle := v.text?.bind ofId?

def mark : SlotStyle → Nat → String
  | question, _ => "?"
  | numbered, n => "$" ++ Decimal.Layout.digits n

end SlotStyle

/-- What a dialect settles. -/
structure Dialect where
  slots : SlotStyle := .question
  likeWord : String := "ILIKE"
  quoteColumns : Bool := false

namespace Dialect

/-- Previews run where patterns match in any case and columns have dots in their names. -/
def preview : Dialect where
  likeWord := "LIKE"
  quoteColumns := true

/-- A column as it is put into a clause.  A dialect that quotes columns takes none but texts. -/
def column (d : Dialect) (name : Value) : Except Misuse Value :=
  if d.quoteColumns then
    match name with
    | .text s => .ok (.text (quoteIdentifier s))
    | v => .error (unquotable v)
  else .ok name

end Dialect

end Cohort.Sql
