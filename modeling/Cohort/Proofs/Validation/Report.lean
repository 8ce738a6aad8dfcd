import Cohort.Proofs.Expression.Matching
import Cohort.Validation.Violation

/-!
# What is told about violations

A violation is told by its code, the field and the operator of its condition,
the way to it and a message.  None of this depends on the category or on the
negation of the condition.
-/

namespace Cohort

/-- What is told about a violation. -/
structure Violation.Report where
  code : String
  field : Value
  operator : Value
  path : Path
  message : String

def Violation.report (v : Violation) : Violation.Report where
  code := v.code
  field := v.condition.field
  operator := v.condition.operator
  path := v.path
  message := v.message

/-- Two conditions make the same test. -/
structure Condition.SameTest (c c' : Condition) : Prop where
  field : c.field = c'.field
  operator : c.operator = c'.operator
  value : c.value = c'.value

theorem Condition.sameTest_refl (c : Condition) : c.SameTest c := ⟨rfl, rfl, rfl⟩

open Condition (SameTest)

/-- What is wrong with a condition depends on its field, operator and value alone. -/
theorem Catalog.complaints_eq_of_sameTest (cat : Catalog) {c c' : Condition} (h : c.SameTest c') :
    cat.complaints c = cat.complaints c' := by
  have hcomplaint : complaint c = complaint c' := by
    funext d
    cases d <;> simp only [complaint, Defect.message, h.field, h.operator, h.value]
  unfold complaints operatorDefects valueDefects
  rw [hcomplaint, h.field, h.operator, h.value]

/-- Conditions of the same test have the same report. -/
theorem map_report_violationsAt (cat : Catalog) {p p' : Path × Condition}
    (h : Node.AtSamePlace SameTest p p') :
    (cat.violationsAt p).map (List.map Violation.report) =
      (cat.violationsAt p').map (List.map Violation.report) := by
  obtain ⟨path, c⟩ := p
  obtain ⟨path', c'⟩ := p'
  obtain ⟨rfl, htest⟩ := h
  replace htest : c.SameTest c' := htest
  have hreport : ∀ x : Complaint, Violation.report ⟨x.defect, c, path, x.message⟩ =
      Violation.report ⟨x.defect, c', path, x.message⟩ := by
    intro x
    simp only [Violation.report, Violation.code, htest.field, htest.operator]
  unfold Catalog.violationsAt
  rw [cat.complaints_eq_of_sameTest htest]
  cases cat.complaints c' with
  | error m => rfl
  | ok xs =>
    simp only [Except.map, List.map_map, Except.ok.injEq]
    exact List.map_congr_left fun x _ => hreport x

/-- The reports of violations found one after the other. -/
theorem map_report_append (x y : Except Misuse (List Violation)) :
    (do return (← x) ++ (← y)).map (List.map Violation.report) = (do
      return (← x.map (List.map Violation.report)) ++ (← y.map (List.map Violation.report))) := by
  cases x with
  | error m => rfl
  | ok vs =>
    cases y with
    | error m => rfl
    | ok ws => exact congrArg Except.ok List.map_append

/-- Conditions of the same tests, place by place, have the same reports. -/
theorem map_report_violationsOf (cat : Catalog) {ps ps' : List (Path × Condition)}
    (h : List.Forall₂ (Node.AtSamePlace SameTest) ps ps') :
    (cat.violationsOf ps).map (List.map Violation.report) =
      (cat.violationsOf ps').map (List.map Violation.report) := by
  induction h with
  | nil => rfl
  | @cons p p' ps ps' hp _ ih =>
    have hfirst := map_report_violationsAt cat hp
    have happend := map_report_append (cat.violationsAt p) (cat.violationsOf ps)
    have happend' := map_report_append (cat.violationsAt p') (cat.violationsOf ps')
    rw [hfirst, ih] at happend
    exact happend.trans happend'.symm

end Cohort
