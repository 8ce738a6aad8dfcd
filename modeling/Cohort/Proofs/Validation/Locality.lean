import Cohort.Proofs.Expression.Paths
import Cohort.Proofs.Validation.Report
import Cohort.Proofs.Validation.Totality

/-!
# Violations point at conditions

Validation goes through the conditions in the order in which they are listed, so
its answer is split as their list is.  An edit lists the conditions before and
behind its path as they were listed before it, but for the ways that a removal
renumbers.  So its effect on the violations is seen at and below its path only.
-/

namespace Cohort

open Node (AtSamePlace Surrounds closeUp conditionsOf shifted under)
open Condition (SameTest)

def Violation.closeGap (p : Path) (v : Violation) : Violation :=
  { v with path := p.closeGap v.path }

namespace Catalog

variable {cat : Catalog} {c : Condition} {p : Path} {es fs : List (Path × Condition)}
  {vs us ws here : List Violation}

/-! ## The order of violations -/

/-- Violations of a list of conditions are found part by part. -/
theorem violationsOf_append (cat : Catalog) (es fs : List (Path × Condition)) :
    cat.violationsOf (es ++ fs) = do return (← cat.violationsOf es) ++ (← cat.violationsOf fs) := by
  induction es with
  | nil =>
    rw [List.nil_append, violationsOf]
    cases cat.violationsOf fs <;> rfl
  | cons e es ih =>
    rw [List.cons_append, violationsOf, violationsOf, ih]
    simp only [bind_assoc, pure_bind, List.append_assoc]

/-- Violations of a list of conditions split where the list does. -/
theorem exists_of_violationsOf_append (h : cat.violationsOf (es ++ fs) = .ok vs) :
    ∃ us ws, cat.violationsOf es = .ok us ∧ cat.violationsOf fs = .ok ws ∧ vs = us ++ ws := by
  rw [violationsOf_append] at h
  obtain ⟨us, hus, h⟩ := exists_of_bind_eq_ok h
  obtain ⟨ws, hws, h⟩ := exists_of_bind_eq_ok h
  cases h
  exact ⟨us, ws, hus, hws, rfl⟩

theorem violationsOf_singleton (cat : Catalog) (e : Path × Condition) :
    cat.violationsOf [e] = cat.violationsAt e := by
  rw [violationsOf, violationsOf]
  cases cat.violationsAt e with
  | error m => rfl
  | ok ws => exact congrArg Except.ok (List.append_nil ws)

/-- A violation tells the path and the condition that it was found at. -/
theorem mem_of_mem_violationsOf (h : cat.violationsOf es = .ok vs) {v : Violation} (hv : v ∈ vs) :
    (v.path, v.condition) ∈ es :=
  ((mem_violationsOf_iff h).mp hv).1

/-- Violations come in the order of the ways to their conditions. -/
theorem pairwise_violationsOf (h : cat.violationsOf es = .ok vs)
    (hes : es.Pairwise fun e f => e.1 < f.1) :
    vs.Pairwise fun v w => v.path < w.path ∨ v.path = w.path := by
  induction es generalizing vs with
  | nil =>
    cases h
    exact .nil
  | cons e es ih =>
    obtain ⟨us, hus, h⟩ := exists_of_bind_eq_ok h
    obtain ⟨ws, hws, h⟩ := exists_of_bind_eq_ok h
    cases h
    obtain ⟨hfirst, hes⟩ := List.pairwise_cons.mp hes
    have hpath : ∀ v ∈ us, v.path = e.1 := fun v hv =>
      congrArg Prod.fst ((mem_violationsAt_iff hus).mp hv).1
    refine List.pairwise_append.mpr ⟨?_, ih hws hes, ?_⟩
    · refine List.pairwise_of_forall_mem_list fun v hv w hw => ?_
      exact .inr ((hpath v hv).trans (hpath w hw).symm)
    · intro v hv w hw
      rw [hpath v hv]
      exact .inl (hfirst _ (mem_of_mem_violationsOf hws hw))

/-! ## The violations of one condition -/

section Filter

variable {P : Violation → Bool}

theorem filter_middle (hus : ∀ v ∈ us, P v = false) (hhere : ∀ v ∈ here, P v = true)
    (hws : ∀ v ∈ ws, P v = false) : (us ++ here ++ ws).filter P = here := by
  have hnone : ∀ {l : List Violation}, (∀ v ∈ l, P v = false) → l.filter P = [] := fun hl =>
    List.filter_eq_nil_iff.mpr fun v hv => by simp [hl v hv]
  rw [List.filter_append, List.filter_append, hnone hus, hnone hws, List.filter_eq_self.mpr hhere,
    List.nil_append, List.append_nil]

theorem filter_around (hus : ∀ v ∈ us, P v = true) (hhere : ∀ v ∈ here, P v = false)
    (hws : ∀ v ∈ ws, P v = true) : (us ++ here ++ ws).filter P = us ++ ws := by
  have hnone : here.filter P = [] := List.filter_eq_nil_iff.mpr fun v hv => by simp [hhere v hv]
  rw [List.filter_append, List.filter_append, hnone, List.filter_eq_self.mpr hus,
    List.filter_eq_self.mpr hws, List.append_nil]

end Filter

/-- The violations with the way to a condition are those of the condition. -/
theorem violationsAt_eq_filter (h : cat.violationsOf es = .ok vs)
    (hes : es.Pairwise fun e f => e.1 < f.1) (hmem : (p, c) ∈ es) :
    cat.violationsAt (p, c) = .ok (vs.filter fun v => v.path = p) := by
  obtain ⟨before, behind, rfl⟩ := List.append_of_mem hmem
  obtain ⟨us, rest, hus, hrest, rfl⟩ := exists_of_violationsOf_append h
  rw [← List.singleton_append] at hrest
  obtain ⟨here, ws, hhere, hws, rfl⟩ := exists_of_violationsOf_append hrest
  rw [violationsOf_singleton] at hhere
  rw [List.pairwise_append, List.pairwise_cons] at hes
  obtain ⟨-, ⟨hbehind, -⟩, hbefore⟩ := hes
  rw [hhere, ← List.append_assoc, filter_middle]
  · intro v hv
    have hlt := hbefore _ (mem_of_mem_violationsOf hus hv) _ List.mem_cons_self
    refine decide_eq_false ?_
    rintro rfl
    exact List.lt_irrefl _ hlt
  · intro v hv
    obtain ⟨hpath, -⟩ := Prod.mk.inj ((mem_violationsAt_iff hhere).mp hv).1
    exact decide_eq_true hpath
  · intro v hv
    have hlt := hbehind _ (mem_of_mem_violationsOf hws hv)
    refine decide_eq_false ?_
    rintro rfl
    exact List.lt_irrefl _ hlt

/-- The codes of what is wrong with a condition, in order. -/
inductive HasCodes (cat : Catalog) (c : Condition) : List String → Prop
  | unknownField : cat.find? c.field = none → HasCodes cat c ["unknown_field"]
  | known {f : Field} {admitted : Bool} : cat.find? c.field = some f →
      f.admits c.value c.operator = .ok admitted →
      HasCodes cat c ((if f.permits c.operator then [] else ["operator_not_permitted"]) ++
        if admitted then [] else ["invalid_value"])

/-- The codes at a condition are those that it has by itself. -/
theorem hasCodes_of_violationsAt (h : cat.violationsAt (p, c) = .ok vs) :
    cat.HasCodes c (vs.map Violation.code) := by
  unfold violationsAt at h
  cases hxs : cat.complaints c with
  | error m => simp [hxs, Except.map] at h
  | ok xs =>
    rw [hxs] at h
    cases h
    have hcodes : (xs.map fun x => (⟨x.defect, c, p, x.message⟩ : Violation)).map Violation.code =
        (xs.map (·.defect)).map Defect.code := by
      rw [List.map_map, List.map_map]
      rfl
    rw [hcodes]
    unfold complaints at hxs
    cases hf : cat.find? c.field with
    | none =>
      rw [hf] at hxs
      rw [map_defect_of_mapM_complaint hxs]
      exact .unknownField hf
    | some f =>
      simp only [hf] at hxs
      obtain ⟨ofOperator, hoperator, hxs⟩ := exists_of_bind_eq_ok hxs
      obtain ⟨ds, hds, hxs⟩ := exists_of_bind_eq_ok hxs
      obtain ⟨ofValue, hvalue, hxs⟩ := exists_of_bind_eq_ok hxs
      cases hxs
      obtain ⟨expected, hexpected, hds⟩ := exists_of_bind_eq_ok hds
      obtain ⟨admitted, hadmitted, hds⟩ := exists_of_bind_eq_ok hds
      cases hds
      have hadmits : f.admits c.value c.operator = .ok admitted := by
        rw [Field.admits, hexpected]
        exact hadmitted
      have hknown := HasCodes.known hf hadmits
      rw [List.map_append, map_defect_of_mapM_complaint hoperator,
        map_defect_of_mapM_complaint hvalue, operatorDefects]
      cases hp : f.permits c.operator <;> cases admitted <;>
        simpa [hp, Defect.code] using hknown

/-! ## After an edit -/

/-- A condition that moves takes its violations along. -/
theorem violationsAt_closeGap (cat : Catalog) (p : Path) (e : Path × Condition) :
    cat.violationsAt (p.closeGap e.1, e.2) =
      (cat.violationsAt e).map (List.map (Violation.closeGap p)) := by
  unfold violationsAt
  cases cat.complaints e.2 with
  | error m => rfl
  | ok xs =>
    simp only [Except.map, List.map_map]
    rfl

/-- When conditions close a gap, their violations move along with them. -/
theorem violationsOf_closeUp (h : cat.violationsOf es = .ok vs) (p : Path) :
    cat.violationsOf (closeUp p es) = .ok (vs.map (Violation.closeGap p)) := by
  induction es generalizing vs with
  | nil =>
    cases h
    rfl
  | cons e es ih =>
    obtain ⟨us, hus, h⟩ := exists_of_bind_eq_ok h
    obtain ⟨ws, hws, h⟩ := exists_of_bind_eq_ok h
    cases h
    rw [closeUp, List.map_cons, violationsOf, violationsAt_closeGap, hus]
    have hrest := ih hws
    rw [closeUp] at hrest
    rw [hrest, List.map_append]
    rfl

variable {e t : Expression} {f : Node.Change}

/-- The answer is split at the path of an edit, and so is the answer after the edit.  What is
violated before the path does not move if the place is given up. -/
theorem exists_violations_of_edit (h : cat.validate e = .ok vs) (ht : e.edit p f = .ok t) :
    ∃ m o us here ws, e.at? p = .ok m ∧ f m = .ok o ∧ vs = us ++ here ++ ws ∧
      (∀ v ∈ us, ¬p <+: v.path) ∧ (∀ v ∈ ws, ¬p <+: v.path) ∧
      us.map (Violation.closeGap p) = us ∧
      cat.violationsOf (under p m.conditions) = .ok here ∧
      cat.validate t = do return us ++ (← cat.violationsOf (under p (conditionsOf o))) ++
        if o.isSome then ws else ws.map (Violation.closeGap p) := by
  obtain ⟨m, o, before, behind, hm, ho, hsurrounds, hlist, hlist'⟩ :=
    Expression.exists_conditions_of_edit ht
  rw [validate, hlist] at h
  obtain ⟨first, ws, hfirst, hws, rfl⟩ := exists_of_violationsOf_append h
  obtain ⟨us, here, hus, hhere, rfl⟩ := exists_of_violationsOf_append hfirst
  refine ⟨m, o, us, here, ws, hm, ho, rfl, ?_, ?_, ?_, hhere, ?_⟩
  · intro v hv
    exact hsurrounds.before_apart _ (mem_of_mem_violationsOf hus hv)
  · intro v hv
    exact hsurrounds.behind_apart _ (mem_of_mem_violationsOf hws hv)
  · have hstays := violationsOf_closeUp hus p
    rw [hsurrounds.before_stays, hus] at hstays
    exact (Except.ok.inj hstays).symm
  · have hbehind : cat.violationsOf (shifted p o behind) =
        .ok (if o.isSome then ws else ws.map (Violation.closeGap p)) := by
      cases o with
      | none => exact violationsOf_closeUp hws p
      | some n => exact hws
    rw [validate, hlist', violationsOf_append, violationsOf_append, hus, hbehind]
    simp only [bind_assoc, pure_bind]
    rfl

/-- Validation answers after a change just if the defects of a condition can be told, and finds the
same violations as before at the paths other than that of the condition. -/
def KeepsElsewhere (cat : Catalog) (vs : List Violation) (p : Path) (c : Condition)
    (t : Expression) : Prop :=
  (cat.validate t).map (List.filter fun v => v.path ≠ p) =
    (cat.complaints c).map fun _ => vs.filter fun v => v.path ≠ p

/-- The violations of one condition all have the way to it. -/
theorem path_eq_of_mem_violationsAt (h : cat.violationsAt (p, c) = .ok vs) {v : Violation}
    (hv : v ∈ vs) : v.path = p :=
  congrArg Prod.fst ((mem_violationsAt_iff h).mp hv).1

/-- A condition in the place of a condition leaves the violations at other paths alone. -/
theorem keepsElsewhere_of_edit (h : cat.validate e = .ok vs) {c' : Condition}
    (hc : e.at? p = .ok (.condition c)) (hf : f (.condition c) = .ok (some (.condition c')))
    (ht : e.edit p f = .ok t) : cat.KeepsElsewhere vs p c' t := by
  obtain ⟨m, o, us, here, ws, hm, ho, rfl, hus, hws, -, hhere, ht⟩ := exists_violations_of_edit h ht
  cases hc.symm.trans hm
  cases hf.symm.trans ho
  have hunder : ∀ c : Condition, under p (Node.condition c).conditions = [(p, c)] := by
    intro c
    simp [under, Node.conditions]
  rw [hunder, violationsOf_singleton] at hhere
  rw [Node.conditionsOf_some, hunder, violationsOf_singleton] at ht
  have hkept : ∀ {here : List Violation}, (∀ v ∈ here, v.path = p) →
      ((us ++ here ++ ws).filter fun v => v.path ≠ p) = us ++ ws := by
    intro here hhere
    refine filter_around ?_ ?_ ?_
    · intro v hv
      refine decide_eq_true ?_
      rintro rfl
      exact hus v hv List.prefix_rfl
    · intro v hv
      exact decide_eq_false fun hne => hne (hhere v hv)
    · intro v hv
      refine decide_eq_true ?_
      rintro rfl
      exact hws v hv List.prefix_rfl
  unfold KeepsElsewhere
  rw [ht, hkept fun v hv => path_eq_of_mem_violationsAt hhere hv]
  cases hxs : cat.complaints c' with
  | error m =>
    rw [violationsAt, hxs]
    rfl
  | ok xs =>
    have hhere' : cat.violationsAt (p, c') =
        .ok (xs.map fun x => ⟨x.defect, c', p, x.message⟩) := by
      rw [violationsAt, hxs]
      rfl
    rw [hhere']
    exact congrArg Except.ok (hkept fun v hv => path_eq_of_mem_violationsAt hhere' hv)

/-- Removal takes away what is violated at and below its path. -/
theorem validate_of_remove (h : cat.validate e = .ok vs) (ht : e.remove p = .ok t) :
    cat.validate t = .ok ((vs.filter fun v => ¬p <+: v.path).map (Violation.closeGap p)) := by
  unfold Expression.remove at ht
  split at ht
  case isTrue => cases ht
  case isFalse =>
    obtain ⟨m, o, us, here, ws, -, ho, rfl, hus, hws, hstays, hhere, ht⟩ :=
      exists_violations_of_edit h ht
    cases ho
    rw [ht, filter_around, List.map_append, hstays]
    · exact congrArg Except.ok (congrArg (· ++ _) (List.append_nil us))
    · intro v hv
      exact decide_eq_true (hus v hv)
    · intro v hv
      obtain ⟨q, hq, -⟩ := Node.mem_under_iff.mp (mem_of_mem_violationsOf hhere hv)
      exact decide_eq_false fun hnot => hnot ⟨q, hq.symm⟩
    · intro v hv
      exact decide_eq_true (hws v hv)

end Catalog

/-! ## Edits that only turn -/

section Turned

variable {e t : Expression} {p : Path} {f : Node.Change}

theorem Node.atSamePlace_refl (es : List (Path × Condition)) :
    List.Forall₂ (AtSamePlace SameTest) es es :=
  List.forall₂_same.mpr fun e _ => ⟨rfl, e.2.sameTest_refl⟩

/-- A change that keeps the tests where it is made keeps all tests. -/
theorem Expression.sameTests_of_edit (ht : e.edit p f = .ok t)
    (hf : ∀ m o, f m = .ok o →
      List.Forall₂ (AtSamePlace SameTest) m.conditions (conditionsOf o) ∧ o.isSome = true) :
    List.Forall₂ (AtSamePlace SameTest) e.conditions t.conditions := by
  obtain ⟨m, o, before, behind, -, ho, -, hlist, hlist'⟩ :=
    Expression.exists_conditions_of_edit ht
  obtain ⟨htests, hsome⟩ := hf m o ho
  obtain ⟨n, rfl⟩ := Option.isSome_iff_exists.mp hsome
  rw [hlist, hlist']
  refine List.rel_append (List.rel_append (Node.atSamePlace_refl before) ?_)
    (Node.atSamePlace_refl behind)
  refine List.rel_map ?_ htests
  rintro q q' ⟨hpath, htest⟩
  exact ⟨congrArg (p ++ ·) hpath, htest⟩

/-- Toggling moves no condition and changes no test but by its negation. -/
theorem Expression.sameTests_of_toggle (ht : e.toggle p = .ok t) :
    List.Forall₂ (AtSamePlace SameTest) e.conditions t.conditions := by
  refine Expression.sameTests_of_edit ht ?_
  rintro (c | ⟨op, cs, negated⟩) o ho
  · cases ho
    rw [Node.conditionsOf_some, Node.conditions, Node.conditions]
    exact ⟨.cons ⟨rfl, rfl, rfl, rfl⟩ .nil, rfl⟩
  · cases ho
    rw [Node.conditionsOf_some, Node.conditions, Node.conditions]
    exact ⟨Node.atSamePlace_refl _, rfl⟩

/-- Another connective changes no condition. -/
theorem Expression.conditions_setConnective {raw : Value} (ht : e.setConnective p raw = .ok t) :
    t.conditions = e.conditions := by
  unfold Expression.setConnective at ht
  cases hop : Connective.ofValue? raw with
  | none =>
    rw [hop] at ht
    cases ht
  | some op =>
    rw [hop] at ht
    obtain ⟨m, o, before, behind, -, ho, -, hlist, hlist'⟩ :=
      Expression.exists_conditions_of_edit ht
    cases m with
    | condition c => cases ho
    | group op' cs negated =>
      cases ho
      rw [hlist, hlist', Node.conditionsOf_some, Node.conditions, Node.conditions]
      rfl

end Turned

/-! ## The answer -/

open Violation (closeGap)

/-- An answer of validation has its violations in the order of their paths, and each path leads to
the condition that is told; the violations with the way to a condition are those of the condition,
in the order of the checks.  Turning a negation or a connective changes nothing that is told,
another condition in the place of a condition changes nothing at other paths, and a removal takes
away what is violated at and below its path and renumbers the paths through later siblings. -/
theorem violations_local {cat : Catalog} {e : Expression} {vs : List Violation}
    (h : cat.validate e = .ok vs) :
    (∀ v ∈ vs, v.path ≠ [] ∧ e.at? v.path = .ok (.condition v.condition)) ∧
    vs.Pairwise (fun v w => v.path < w.path ∨ v.path = w.path) ∧
    (∀ p c, e.at? p = .ok (.condition c) →
      cat.HasCodes c ((vs.filter fun v => v.path = p).map Violation.code)) ∧
    (∀ p t, e.toggle p = .ok t →
      (cat.validate t).map (List.map Violation.report) = .ok (vs.map Violation.report)) ∧
    (∀ p raw t, e.setConnective p raw = .ok t → cat.validate t = .ok vs) ∧
    (∀ p c, e.at? p = .ok (.condition c) →
      (∀ c' t, e.replace p (.condition c') = .ok t → cat.KeepsElsewhere vs p c' t) ∧
      ∀ ch t, e.update p (.ok ch) = .ok t → cat.KeepsElsewhere vs p (ch.apply c) t) ∧
    (∀ p t, e.remove p = .ok t →
      cat.validate t = .ok ((vs.filter fun v => ¬p <+: v.path).map (closeGap p))) := by
  have hsorted := Node.pairwise_conditions e.toNode
  refine ⟨?_, ?_, ?_, ?_, ?_, ?_, ?_⟩
  · intro v hv
    have hat := Expression.mem_conditions_iff_at?.mp (Catalog.mem_of_mem_violationsOf h hv)
    refine ⟨?_, hat⟩
    intro hnil
    rw [hnil] at hat
    cases Expression.isGroup_of_at?_root hat
  · exact Catalog.pairwise_violationsOf h hsorted
  · intro p c hc
    have hmem := Expression.mem_conditions_iff_at?.mpr hc
    exact Catalog.hasCodes_of_violationsAt (Catalog.violationsAt_eq_filter h hsorted hmem)
  · intro p t ht
    have hreports := map_report_violationsOf cat (Expression.sameTests_of_toggle ht)
    unfold Catalog.validate at h ⊢
    rw [← hreports, h]
    rfl
  · intro p raw t ht
    unfold Catalog.validate at h ⊢
    rw [Expression.conditions_setConnective ht, h]
  · intro p c hc
    constructor
    · intro c' t ht
      exact Catalog.keepsElsewhere_of_edit h hc rfl ht
    · intro ch t ht
      exact Catalog.keepsElsewhere_of_edit h hc rfl ht
  · intro p t ht
    exact Catalog.validate_of_remove h ht

/-- An unknown field, and an operator and a value that do not suit their field; when the first
condition is removed, what is told about the second moves along. -/
theorem violations_local_bundled :
    let a : Condition := { field := .text "no.such", operator := .text "eq" }
    let b : Condition := { field := .text "intent.score", operator := .text "contains",
                           value := .text "high" }
    let c : Condition := { b with operator := .text "gte", value := .int 5 }
    let e : Expression := {
      children := [.condition a, .group .or [.condition c, .condition b] true] }
    let operatorMessage := "operator not permitted for field intent.score: 'contains' " ++
      "(allowed: gte, lte, between)"
    let valueMessage := "invalid value for field intent.score: expected number, got 'high'"
    let vs : List Violation := [
      ⟨.unknownField, a, [0], "unknown field: no.such"⟩,
      ⟨.operatorNotPermitted ["gte", "lte", "between"], b, [1, 1], operatorMessage⟩,
      ⟨.invalidValue .number, b, [1, 1], valueMessage⟩]
    Catalog.bundled.validate e = .ok vs ∧
      (∀ t, e.remove [0] = .ok t →
        Catalog.bundled.validate t = .ok [
          ⟨.operatorNotPermitted ["gte", "lte", "between"], b, [0, 1], operatorMessage⟩,
          ⟨.invalidValue .number, b, [0, 1], valueMessage⟩]) ∧
      ∀ t, e.replace [1, 1] (.condition a) = .ok t →
        Catalog.bundled.KeepsElsewhere vs [1, 1] a t := by
  intro a b c e operatorMessage valueMessage vs
  have h : Catalog.bundled.validate e = .ok vs := rfl
  obtain ⟨-, -, -, -, -, hreplace, hremove⟩ := violations_local h
  refine ⟨h, hremove [0], (hreplace [1, 1] b rfl).1 a⟩

end Cohort
