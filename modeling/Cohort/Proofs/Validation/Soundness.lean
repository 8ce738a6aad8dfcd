import Cohort.Proofs.Search.Contribution
import Cohort.Proofs.Sql.Alignment
import Cohort.Proofs.Validation.Admission
import Cohort.Validation.Violation

/-!
# Valid expressions are compiled in full

Validation and the two compilers each look at the value of a condition in their
own way.  Where the operators of the fields go with the shapes of their values,
they agree: no condition of a valid expression is lost on the way to a query,
but for those whose operator only the search index has.
-/

namespace Cohort

/-! ## Coherent fields -/

/-- The operators of a field go with the shape of its values. -/
structure Field.IsCoherent (f : Field) : Prop where
  compared : ∀ op ∈ f.operators, op.isScalar = true → (f.shape.isList || f.shape.isGeo) = false
  between : .between ∈ f.operators → f.shape ∈ [.number, .numberRange, .date, .dateRange]
  member : ∀ op ∈ f.operators, op = .isIn ∨ op = .notIn → f.shape.isGeo = false
  withinRadius : .withinRadius ∈ f.operators → f.shape = .geoRadius

instance (f : Field) : Decidable f.IsCoherent :=
  decidable_of_iff
    ((∀ op ∈ f.operators, op.isScalar = true → (f.shape.isList || f.shape.isGeo) = false) ∧
      (.between ∈ f.operators → f.shape ∈ [.number, .numberRange, .date, .dateRange]) ∧
      (∀ op ∈ f.operators, op = .isIn ∨ op = .notIn → f.shape.isGeo = false) ∧
      (.withinRadius ∈ f.operators → f.shape = .geoRadius))
    ⟨fun ⟨h₁, h₂, h₃, h₄⟩ => ⟨h₁, h₂, h₃, h₄⟩,
      fun h => ⟨h.compared, h.between, h.member, h.withinRadius⟩⟩

/-- A condition passes validation: its field is registered and permits its operator, and the value
has the shape that the field expects. -/
structure Condition.IsValid (cat : Catalog) (c : Condition) (f : Field) (op : Operator) : Prop where
  field : cat.find? c.field = some f
  operator : Operator.ofValue? c.operator = some op
  permitted : op ∈ f.operators
  admitted : (f.expectedFor (some op)).admits f c.value = .ok true

/-- A permitted operator is the identifier of one that the field lists. -/
theorem Field.exists_of_permits {f : Field} {operator : Value} (h : f.permits operator = true) :
    ∃ op ∈ f.operators, operator = .text op.id := by
  cases operator <;> simp only [permits, Bool.false_eq_true] at h
  case text s =>
    obtain ⟨op, hop, hid⟩ := List.mem_map.mp (List.contains_iff_mem.mp h)
    exact ⟨op, hop, by rw [hid]⟩

/-- Every defect is put into words, so without words there is none. -/
theorem eq_nil_of_mapM_complaint {c : Condition} {ds : List Defect}
    (h : ds.mapM (Catalog.complaint c) = .ok []) : ds = [] := by
  cases mapM_eq_ok_iff.mp h
  rfl

/-- A condition with nothing wrong is on a field, with an operator and a value that the field takes.
-/
theorem exists_isValid_of_complaints {cat : Catalog} {c : Condition}
    (h : cat.complaints c = .ok []) : ∃ f op, c.IsValid cat f op := by
  unfold Catalog.complaints at h
  cases hf : cat.find? c.field with
  | none =>
    rw [hf] at h
    cases eq_nil_of_mapM_complaint h
  | some f =>
    simp only [hf] at h
    obtain ⟨ofOperator, hoperator, h⟩ := exists_of_bind_eq_ok h
    obtain ⟨ds, hds, h⟩ := exists_of_bind_eq_ok h
    obtain ⟨ofValue, hvalue, h⟩ := exists_of_bind_eq_ok h
    obtain ⟨rfl, rfl⟩ := List.append_eq_nil_iff.mp (Except.ok.inj h)
    have hpermits : f.permits c.operator = true := by
      have hnone := eq_nil_of_mapM_complaint hoperator
      unfold Catalog.operatorDefects at hnone
      split at hnone
      · assumption
      · cases hnone
    obtain ⟨op, hop, hid⟩ := Field.exists_of_permits hpermits
    have hofValue : Operator.ofValue? c.operator = some op := by
      rw [hid]
      exact Operator.ofId?_id op
    refine ⟨f, op, hf, hofValue, hop, ?_⟩
    obtain ⟨expected, hexpected, hds⟩ := exists_of_bind_eq_ok hds
    obtain ⟨admitted, hadmitted, hds⟩ := exists_of_bind_eq_ok hds
    have hds := (Except.ok.inj hds).trans (eq_nil_of_mapM_complaint hvalue)
    have hkey : c.operator.isKey = true := by rw [hid]; rfl
    rw [Field.expected, if_pos hkey, hofValue, Except.ok.injEq] at hexpected
    cases admitted with
    | false => cases hds
    | true => rw [hexpected, hadmitted]

/-- Without violations, every condition is without one. -/
theorem violationsAt_of_violationsOf {cat : Catalog} {es : List (Path × Condition)}
    (h : cat.violationsOf es = .ok []) : ∀ e ∈ es, cat.violationsAt e = .ok [] := by
  induction es with
  | nil => simp
  | cons e es ih =>
    obtain ⟨vs, hvs, h⟩ := exists_of_bind_eq_ok h
    obtain ⟨ws, hws, h⟩ := exists_of_bind_eq_ok h
    have h := List.append_eq_nil_iff.mp (Except.ok.inj h)
    rw [h.1] at hvs
    rw [h.2] at hws
    exact List.forall_mem_cons.mpr ⟨hvs, ih hws⟩

/-- Every condition of a valid expression passes. -/
theorem exists_isValid_of_validate {cat : Catalog} {e : Expression} (h : cat.validate e = .ok []) :
    ∀ c ∈ e.leaves, ∃ f op, c.IsValid cat f op := by
  intro c hc
  obtain ⟨p, hp, rfl⟩ := List.mem_map.mp hc
  have h := violationsAt_of_violationsOf h p hp
  refine exists_isValid_of_complaints ?_
  unfold Catalog.violationsAt at h
  cases hxs : cat.complaints p.2 with
  | error => simp [hxs, Except.map] at h
  | ok xs => simpa [hxs, Except.map] using h

/-! ## Lowering -/

/-- Two bounds are in order: by number in a range of numbers, by time in a range of dates. -/
def InOrder : Shape → Value → Value → Prop
  | .numberRange, low, high => ∃ x y, low.extent? = some x ∧ high.extent? = some y ∧ x ≤ y
  | .dateRange, low, high =>
    ∃ x y, Date.read low = .ok (some x) ∧ Date.read high = .ok (some y) ∧ x.le y = true
  | _, _, _ => False

theorem InOrder.isBindable {s : Shape} {low high : Value} (h : InOrder s low high) :
    low.IsBindable ∧ high.IsBindable := by
  cases s <;> try cases h
  case numberRange x h =>
    obtain ⟨y, hx, hy, -⟩ := h
    exact ⟨Value.isBindable_of_extent? hx, Value.isBindable_of_extent? hy⟩
  case dateRange x h =>
    obtain ⟨y, hx, hy, -⟩ := h
    exact ⟨Value.isBindable_of_read hx, Value.isBindable_of_read hy⟩

section Lowering

variable {f : Field} (hf : f.IsCoherent) {op : Operator} (hop : op ∈ f.operators) {v : Value}
  (h : (f.expectedFor (some op)).admits f v = .ok true)

include hf hop h

/-- The value of a valid range test is a pair of bounds in order. -/
theorem exists_inOrder_of_between (heq : op = .between) :
    ∃ low high, v.sequence? = some [low, high] ∧ InOrder f.shape.range low high := by
  subst heq
  have hrange : f.shape.range = .numberRange ∨ f.shape.range = .dateRange := by
    have hshape := hf.between hop
    cases hs : f.shape <;> simp [hs, Shape.range] at hshape ⊢
  replace h : f.shape.range.admits f v = .ok true := h
  rcases hrange with hrange | hrange <;> rw [hrange] at h ⊢
  · obtain ⟨low, high, x, y, hseq, hx, hy, hle⟩ :=
      Value.exists_of_isNumberRange (Except.ok.inj h)
    exact ⟨low, high, hseq, x, y, hx, hy, hle⟩
  · obtain ⟨low, high, x, y, hseq, hx, hy, hle⟩ := Value.exists_of_isDateRange h
    exact ⟨low, high, hseq, x, y, hx, hy, hle⟩

/-- The value of a valid distance test is a circle. -/
theorem isGeoRadius_of_withinRadius (heq : op = .withinRadius) : v.isGeoRadius = true := by
  subst heq
  replace h : f.shape.admits f v = .ok true := h
  rw [hf.withinRadius hop] at h
  exact Except.ok.inj h

/-- The value of a valid comparison binds. -/
theorem isBindable_of_isScalar (hscalar : op.isScalar = true) : v.IsBindable := by
  have hshape := hf.compared op hop hscalar
  have hexpected : f.expectedFor (some op) = f.shape.bound := by
    cases op <;> first | rfl | cases hscalar
  have hbound : (f.shape.bound.isGeo || f.shape.bound.isList || f.shape.bound.isRange) = false := by
    cases hs : f.shape <;> rw [hs] at hshape <;> first | rfl | cases hshape
  rw [hexpected] at h
  rcases Shape.admits_cases h with ⟨hgeo, -⟩ | ⟨hseq, -⟩ | ⟨-, hv⟩
  · simp [hgeo] at hbound
  · simp [Bool.or_assoc, hseq] at hbound
  · exact hv

/-- The one value of a membership test can be bound, or its items can. -/
theorem isBindable_of_member (hmember : op = .isIn ∨ op = .notIn) :
    v.IsBindable ∨ ∃ x xs, v.sequence? = some (x :: xs) ∧ ∀ y ∈ x :: xs, y.IsBindable := by
  have hgeo := hf.member op hop hmember
  replace h : f.shape.admits f v = .ok true := by rcases hmember with rfl | rfl <;> exact h
  rcases Shape.admits_cases h with ⟨hgeo', -⟩ | ⟨-, hseq⟩ | ⟨-, hv⟩
  · simp [hgeo'] at hgeo
  · exact .inr hseq
  · exact .inl hv

omit hf hop in

/-- No shape admits an empty sequence. -/
theorem sequence?_ne_nil_of_admits : v.sequence? ≠ some [] := by
  rcases Shape.admits_cases h with ⟨-, hv⟩ | ⟨-, x, xs, hv, -⟩ | ⟨-, hv⟩
  · simp [hv]
  · simp [hv]
  · simp [Value.sequence?_of_isBindable hv]

/-- An admitted value fits its operator. -/
theorem fits_of_admits : Sql.fits op v = true := by
  cases op
  case between =>
    obtain ⟨low, high, hseq, -⟩ := exists_inOrder_of_between hf hop h rfl
    exact Sql.fits_between_iff.mpr ⟨low, high, hseq⟩
  case withinRadius =>
    obtain ⟨lat, lng, radius, hlat, hlng, hradius, -⟩ :=
      Value.exists_of_isGeoRadius (isGeoRadius_of_withinRadius hf hop h rfl)
    exact Sql.fits_withinRadius_iff.mpr ⟨lat, lng, radius, hlat, hlng, hradius⟩
  all_goals rfl

/-- What a condition binds can be bound. -/
theorem isBindable_of_mem_params (column : Value) (next : Nat) :
    ∀ p ∈ (Sql.Clause.ofTest op column next v).params, p.IsBindable := by
  have hmember : ∀ negated, op = .isIn ∨ op = .notIn →
      ∀ p ∈ (Sql.Clause.member negated column next v).params, p.IsBindable := by
    intro negated hop'
    rcases isBindable_of_member hf hop h hop' with hv | ⟨x, xs, hseq, hall⟩
    · simpa [Sql.Clause.member, Value.sequence?_of_isBindable hv, Sql.Clause.compare] using hv
    · simpa [Sql.Clause.member, hseq] using hall
  cases op
  case between =>
    obtain ⟨low, high, hseq, horder⟩ := exists_inOrder_of_between hf hop h rfl
    simpa [Sql.Clause.ofTest, Sql.Clause.between, hseq] using horder.isBindable
  case withinRadius =>
    obtain ⟨lat, lng, radius, hlat, hlng, hradius, hbindable⟩ :=
      Value.exists_of_isGeoRadius (isGeoRadius_of_withinRadius hf hop h rfl)
    simpa [Sql.Clause.ofTest, Sql.Clause.withinRadius, hlat, hlng, hradius] using hbindable
  case isIn => exact hmember false (.inl rfl)
  case notIn => exact hmember true (.inr rfl)
  case eq | neq | gt | gte | lt | lte =>
    intro p hp
    rw [List.mem_singleton.mp hp]
    exact isBindable_of_isScalar hf hop h rfl
  case contains | containsAnyCase | startsWith | endsWith =>
    intro p hp
    rw [List.mem_singleton.mp hp]
    trivial
  case present | absent | isTrue | isFalse | matchText | matchAny =>
    intro p hp
    cases hp

/-- An admitted value fits the test of the search, too. -/
theorem searchFits_of_admits : Search.fits op v = true := by
  have hfits := fits_of_admits hf hop h
  cases op
  case isIn | notIn | matchAny =>
    have hne := sequence?_ne_nil_of_admits h
    rw [Search.fits]
    rcases hseq : v.sequence? with _ | _ | ⟨x, xs⟩
    · rfl
    · exact absurd hseq hne
    · rfl
  all_goals exact hfits

end Lowering

/-! ## Valid expressions -/

namespace Condition.IsValid

variable {cat : Catalog} {c : Condition} {f : Field} {op : Operator} (h : c.IsValid cat f op)
  (hf : f.IsCoherent)

include h hf

/-- A valid condition has a clause, unless there is none for its operator. -/
theorem supports_of_degraded {r : Sql.Degradation} (hr : Sql.degradation? cat c = some r) :
    Sql.supports op = false := by
  have hfits := fits_of_admits hf h.permitted h.admitted
  cases hs : Sql.supports op with
  | false => rfl
  | true => simp [Sql.degradation?, h.field, h.operator, hs, hfits] at hr

/-- A valid condition has the clause of its operator, if there is one. -/
theorem ofCondition_eq (next : Nat) :
    Sql.Clause.ofCondition cat next c =
      if Sql.supports op then (Sql.Clause.ofTest op f.column next c.value).negateIf c.negated
      else .always := by
  have hfits := fits_of_admits hf h.permitted h.admitted
  unfold Sql.Clause.ofCondition Sql.target
  cases hs : Sql.supports op <;> simp [h.field, h.operator, hs, hfits]

/-- What a valid condition binds are numbers, truth values and texts. -/
theorem isBindable_of_mem {p : Value} (hp : p ∈ (Sql.Clause.ofCondition cat 1 c).params) :
    p.IsBindable := by
  rw [h.ofCondition_eq hf] at hp
  split at hp
  · rw [Sql.Clause.params_negateIf] at hp
    exact isBindable_of_mem_params hf h.permitted h.admitted f.column 1 p hp
  · cases hp

/-- A valid condition on an indexed field is left to the search. -/
theorem isUnsearched_eq_false (hpath : f.searchPath.truthy = true) :
    Search.isUnsearched cat c = false := by
  have hfits := searchFits_of_admits hf h.permitted h.admitted
  simp [Search.isUnsearched, Search.fate, h.field, hpath, h.operator, hfits]

/-- It has a filter if its test can be written. -/
theorem exists_conditionFilter? (hpath : f.searchPath.truthy = true)
    (hc : Search.isWritable cat c = true) :
    ∃ t, t ≠ "" ∧ Search.conditionFilter? cat c = some t := by
  obtain ⟨t, hne, ht⟩ := Search.exists_test? (h.isUnsearched_eq_false hf hpath) hc
  rw [Search.conditionFilter?, ht]
  cases c.negated
  · exact ⟨t, hne, rfl⟩
  · exact ⟨_, by simp, rfl⟩

end Condition.IsValid

/-- Where the operators of every field go with the shape of its values, a valid expression is
compiled in full: only the two operators of the search index are degraded, there is a query just if
all that is written for it can be, whatever it binds can be bound, and the bounds of every range are
in order.  There is a search filter just if the tests can be written, and every condition on an
indexed field has a part in it. -/
theorem compile_of_validate {cat : Catalog} (hcat : ∀ f ∈ cat.fields, f.IsCoherent)
    {e : Expression} (h : cat.validate e = .ok []) (d : Sql.Dialect) :
    (∀ o ∈ (Sql.compile d cat e).degraded,
      Operator.ofValue? o.condition.operator ∈ [some .matchText, some .matchAny]) ∧
    ((∃ q, (Sql.compile d cat e).query = .ok q) ↔
      ∀ c ∈ e.leaves, Sql.isWritable d cat c = true) ∧
    (∀ q, (Sql.compile d cat e).query = .ok q → ∀ p ∈ q.params, p.IsBindable) ∧
    (∀ c ∈ e.leaves, Operator.ofValue? c.operator = some .between →
      ∃ f low high, cat.find? c.field = some f ∧ c.value.sequence? = some [low, high] ∧
        InOrder f.shape.range low high ∧
        (Sql.isWritable d cat c = true → (Sql.compile d cat (.alone c)).params = [low, high])) ∧
    ((∃ text, Search.filter cat e = .ok text) ↔
      ∀ c ∈ e.leaves, Search.isWritable cat c = true) ∧
    ∀ text, Search.filter cat e = .ok text →
      ∀ c ∈ e.leaves, ∀ f, cat.find? c.field = some f → f.searchPath.truthy = true →
        ∃ t, t ≠ "" ∧ Search.conditionFilter? cat c = some t ∧ Search.Occurs t text := by
  have hvalid := exists_isValid_of_validate h
  refine ⟨?_, ?_, ?_, ?_, ?_, ?_⟩
  · intro o ho
    obtain ⟨hmem, hdegraded⟩ := Sql.mem_leaves_of_mem_degraded ho
    obtain ⟨f, op, hc⟩ := hvalid o.condition hmem
    have hs := hc.supports_of_degraded (hcat f (Catalog.mem_fields_of_find? hc.field)) hdegraded
    rw [hc.operator]
    cases op <;> first | decide | cases hs
  · rw [← List.all_eq_true, Sql.all_isWritable_iff, Sql.compile_eq, Sql.hindrance?]
    dsimp only
    cases e.leaves.findSome? (Sql.obstacle? d cat) <;> simp
  · intro q hq p hp
    obtain ⟨c, hc, hp⟩ := Sql.exists_of_mem_params hq hp
    obtain ⟨f, op, hv⟩ := hvalid c hc
    exact hv.isBindable_of_mem (hcat f (Catalog.mem_fields_of_find? hv.field)) hp
  · intro c hc hop
    obtain ⟨f, op, hv⟩ := hvalid c hc
    cases hv.operator.symm.trans hop
    have hf := hcat f (Catalog.mem_fields_of_find? hv.field)
    obtain ⟨low, high, hseq, horder⟩ := exists_inOrder_of_between hf hv.permitted hv.admitted rfl
    refine ⟨f, low, high, hv.field, hseq, horder, fun hw => ?_⟩
    have hnone : Sql.obstacle? d cat c = none := by simpa [Sql.isWritable] using hw
    rw [Sql.params_compile_alone hnone, hv.ofCondition_eq hf]
    simp [Sql.supports, Sql.Clause.ofTest, Sql.Clause.between, hseq]
  · constructor
    · rintro ⟨text, htext⟩
      exact (Search.filter_eq_ok_iff.mp htext).1
    · exact fun hall => ⟨_, Search.filter_of_writable hall⟩
  · intro text htext c hc f hf hpath
    obtain ⟨f', op, hv⟩ := hvalid c hc
    cases hv.field.symm.trans hf
    obtain ⟨t, hne, ht⟩ :=
      hv.exists_conditionFilter? (hcat f (Catalog.mem_fields_of_find? hv.field)) hpath
        ((Search.filter_eq_ok_iff.mp htext).1 c hc)
    exact ⟨t, hne, ht, Search.occurs_filter ht hc htext⟩

/-- A search for words, a range of dates and a comparison, valid under the bundled catalog. -/
theorem compile_of_validate_bundled :
    let e : Expression := {
      children := [
        .condition { field := .text "intent.topics", operator := .text "matchAny",
                     value := .list [.text "ai"], negated := true },
        .condition { field := .text "date.event_date", operator := .text "between",
                     value := .tuple [.text "2024-01-02", .text "2024-03-01"] },
        .group .or [
          .condition { field := .text "intent.score", operator := .text "gte",
                       value := .int 5 }] true] }
    (∀ f ∈ Catalog.bundled.fields, f.IsCoherent) ∧ Catalog.bundled.validate e = .ok [] ∧
      (∀ o ∈ (Sql.compile {} .bundled e).degraded,
        Operator.ofValue? o.condition.operator ∈ [some .matchText, some .matchAny]) ∧
      ∃ q, (Sql.compile {} .bundled e).query = .ok q ∧ ∀ p ∈ q.params, p.IsBindable := by
  intro e
  have hcat : ∀ f ∈ Catalog.bundled.fields, f.IsCoherent := by decide +kernel
  have h : Catalog.bundled.validate e = .ok [] := by rfl
  obtain ⟨hdegraded, hquery, hparams, -⟩ := compile_of_validate hcat h {}
  obtain ⟨q, hq⟩ := hquery.mpr (by decide)
  exact ⟨hcat, h, hdegraded, q, hq, hparams q hq⟩

/-- A number with too many digits is a number, and its comparison valid, but it has no filter. -/
theorem validate_tooLong :
    let c : Condition := { field := .text "intent.score", operator := .text "gte",
                           value := .tooLong }
    Catalog.bundled.validate (.alone c) = .ok [] ∧
    Search.filter .bundled (.alone c) = .error .value := by
  intro c
  have hfate : Search.fate .bundled c = .tested (.text "intent.score") .gte := rfl
  have hvalue : c.value.isWritable = false := Value.isWritable_tooLong
  have hunfit : Search.isWritable .bundled c = false := by
    rw [Search.isWritable_of_tested hfate]
    simp [Search.rendered, hvalue]
  refine ⟨rfl, Search.filter_of_not_isWritable ?_ hunfit⟩
  rw [Expression.leaves_alone]
  exact List.mem_singleton_self c

end Cohort
