import Cohort.Proofs.Expression.Leaves
import Cohort.Proofs.Value.Writing
import Cohort.Sql.Compile

/-!
# Degraded conditions

Which conditions have no clause, said on the field, the operator and the value
alone, and why.
-/

namespace Cohort.Sql

/-- Whether a value has the form that an operator needs: a pair for a range, a point and a radius
for a distance, and any form otherwise. -/
def fits : Operator → Value → Bool
  | .between, v => v.sequence?.any (·.length == 2)
  | .withinRadius, v =>
    (v.get? "lat").isSome && (v.get? "lng").isSome && (v.get? "radiusKm").isSome
  | _, _ => true

/-- A range test takes the sequences of two items. -/
theorem fits_between_iff {v : Value} :
    fits .between v = true ↔ ∃ low high, v.sequence? = some [low, high] := by
  rw [fits]
  rcases v.sequence? with _ | _ | ⟨low, _ | ⟨high, _ | _⟩⟩ <;> simp

/-- A distance test takes the maps with a latitude, a longitude and a radius. -/
theorem fits_withinRadius_iff {v : Value} :
    fits .withinRadius v = true ↔ ∃ lat lng radius, v.get? "lat" = some lat ∧
      v.get? "lng" = some lng ∧ v.get? "radiusKm" = some radius := by
  simp [fits, Option.isSome_iff_exists, and_assoc]

def emptyTest? (op : Operator) (v : Value) : Option Bool :=
  match op, v.sequence? with
  | .isIn, some [] => some false
  | .notIn, some [] => some true
  | _, _ => none

/-- What an operator expects of a value. -/
def expectation : Operator → String
  | .between => "between expects [min, max]"
  | _ => "withinRadius expects \x7blat, lng, radiusKm\x7d"

/-- Why a condition has no clause, if it has none. -/
def degradation? (cat : Catalog) (c : Condition) : Option Degradation :=
  match cat.find? c.field, Operator.ofValue? c.operator with
  | none, _ => some .unknownField
  | some _, none => some .unsupportedOperator
  | some _, some op =>
    if !supports op then some .unsupportedOperator
    else if fits op c.value then none
    else some (.malformedValue (expectation op))

/-- Whether a condition has a clause. -/
def isLowered (cat : Catalog) (c : Condition) : Bool := (degradation? cat c).isNone

/-- The values that the warning about a degraded condition tells. -/
def Degradation.told (c : Condition) : Degradation → List Value
  | unknownField => [c.field]
  | unsupportedOperator => [c.operator, c.field]
  | malformedValue _ => [c.field, c.operator, c.value]

/-- The warning about a degraded condition is written just if every value it tells can be. -/
theorem isWriting_message (c : Condition) (r : Degradation) :
    Value.IsWriting (r.message c) ((r.told c).all (·.isWritable)) := by
  simp only [Degradation.told]
  cases r with
  | unknownField =>
    rw [List.all_cons, List.all_nil, Bool.and_true]
    exact (Value.isWriting_literal c.field).map _
  | unsupportedOperator =>
    simp only [List.all_cons, List.all_nil, Bool.and_true]
    exact (Value.isWriting_literal c.operator).bind fun _ _ =>
      (Value.isWriting_display c.field).map _
  | malformedValue expectation =>
    simp only [List.all_cons, List.all_nil, Bool.and_true]
    exact (Value.isWriting_display c.field).bind fun _ _ =>
      (Value.isWriting_display c.operator).bind fun _ _ => (Value.isWriting_literal c.value).map _

/-- What is kept of a condition that has no clause. -/
def omission? (cat : Catalog) (c : Condition) : Option (Omission Degradation) := do
  let reason ← degradation? cat c
  let warning ← (reason.message c).toOption
  return ⟨c, reason, warning⟩

/-- What is kept of a condition is the condition, its reason and the warning about it. -/
theorem omission?_eq_some_iff {cat : Catalog} {c : Condition} {o : Omission Degradation} :
    omission? cat c = some o ↔
      o.condition = c ∧ degradation? cat c = some o.reason ∧
        o.reason.message c = .ok o.warning := by
  obtain ⟨c', r, w⟩ := o
  unfold omission?
  simp only [Option.bind_eq_bind, Option.bind_eq_some_iff, toOption_eq_some_iff, Option.pure_def,
    Option.some.injEq, Omission.mk.injEq]
  constructor
  · rintro ⟨_, hr, _, hw, rfl, rfl, rfl⟩
    exact ⟨rfl, hr, hw⟩
  · rintro ⟨rfl, hr, hw⟩
    exact ⟨_, hr, _, hw, rfl, rfl, rfl⟩

/-- What is kept of the conditions of a list that have no clause. -/
def degradations (cat : Catalog) (cs : List Condition) : List (Omission Degradation) :=
  cs.filterMap (omission? cat)

@[simp] theorem degradations_nil (cat : Catalog) : degradations cat [] = [] := rfl

@[simp] theorem degradations_append (cat : Catalog) (cs ds : List Condition) :
    degradations cat (cs ++ ds) = degradations cat cs ++ degradations cat ds :=
  List.filterMap_append

/-- All that the search for the target of a condition can find: a reason to degrade it, or its
operator and its column, and then only the value can be at fault. -/
theorem target_cases (cat : Catalog) (c : Condition) :
    (∃ r, target cat c = .error r ∧ degradation? cat c = some r) ∨
    (∃ f op, target cat c = .ok (op, f.column) ∧ cat.find? c.field = some f ∧
      Operator.ofValue? c.operator = some op ∧ supports op = true ∧
      degradation? cat c =
        if fits op c.value then none else some (.malformedValue (expectation op))) := by
  unfold target degradation?
  cases cat.find? c.field with
  | none => exact .inl ⟨_, rfl, rfl⟩
  | some f =>
    cases Operator.ofValue? c.operator with
    | none => exact .inl ⟨_, rfl, rfl⟩
    | some op =>
      cases hs : supports op with
      | false => exact .inl ⟨.unsupportedOperator, by simp [hs], by simp [hs]⟩
      | true => exact .inr ⟨f, op, by simp [hs], rfl, rfl, hs, by simp [hs]⟩

end Cohort.Sql
