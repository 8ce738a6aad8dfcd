/-!
# Misuse

The ways in which a value can be unfit for what is done with it.  None of them
is part of the language of filters: they arise where a value of the wrong kind
reaches an operation that has no answer for it.
-/

namespace Cohort

inductive Misuse where
  /-- The operation is not defined on values of this kind. -/
  | kind
  /-- The kind is right and the value is not. -/
  | value
  /-- The value has no part of the name that is asked for. -/
  | part
  /-- Nothing is known under the value. -/
  | key
  /-- There is nothing at the place that is asked for. -/
  | index
  /-- The result is beyond what can be represented. -/
  | range
  /-- The value is nested too deeply, or without end. -/
  | depth
  deriving DecidableEq, Repr

end Cohort
