import Cohort.Catalog.Bundled
import Cohort.Proofs.Date.Calendar
import Cohort.Proofs.Expression.Leaves
import Cohort.Proofs.Validation.Admission
import Cohort.Proofs.Value.Writing
import Cohort.Validation.Violation

/-!
# When validation gives an answer

Validation of an expression whose operators are texts has two ways to fail: some
value is held against dates, and a moment in it is beyond the calendar, or
something that is wrong cannot be put into words, since a number in it has too
many digits.  It then stops there without an answer, whatever is wrong
elsewhere.  An answer lists the defects of the conditions, and nothing else; the
value of a condition only matters for the last of them.
-/

namespace Cohort

/-! ## Shapes -/

namespace Shape

/-- The values that are read as dates where a value is held against a shape. -/
def dates : Shape → Value → List Value
  | date, v => [v]
  | dateRange, v =>
    match v.sequence? with
    | some [start, stop] => [start, stop]
    | _ => []
  | _, _ => []

/-- Whether a shape admits a value cannot be told just if one of its dates leaves the calendar. -/
theorem admits_eq_error_iff {s : Shape} {f : Field} {v : Value} {m : Misuse} :
    s.admits f v = .error m ↔ m = .range ∧ ∃ d ∈ s.dates v, Date.LeavesCalendar d := by
  cases s
  case date =>
    have hread : admits .date f v = .error m ↔ Date.read v = .error m := by
      unfold admits
      cases Date.read v <;> simp [Except.map]
    rw [hread, Date.read_eq_error_iff]
    simp [dates]
  case dateRange =>
    rw [admits, Value.isDateRange, dates]
    rcases v.sequence? with _ | _ | ⟨start, _ | ⟨stop, _ | _⟩⟩
    case some.cons.cons.nil =>
      cases hstart : Date.read start with
      | error m' =>
        obtain ⟨rfl, hleaves⟩ := Date.read_eq_error_iff.mp hstart
        simp [bind, Except.bind, hstart, hleaves, eq_comm]
      | ok x =>
        have hstays := Date.not_leavesCalendar_of_read hstart
        cases hstop : Date.read stop with
        | error m' =>
          obtain ⟨rfl, hleaves⟩ := Date.read_eq_error_iff.mp hstop
          simp [bind, Except.bind, hstart, hstop, hleaves, eq_comm]
        | ok y =>
          have hstays' := Date.not_leavesCalendar_of_read hstop
          cases x <;> cases y <;>
            simp [bind, Except.bind, pure, Except.pure, hstart, hstop, hstays, hstays']
    all_goals simp [pure, Except.pure]
  all_goals simp [admits, dates]

end Shape

/-! ## Conditions -/

/-- The expected shape depends on the operator that is named, if one is. -/
theorem Field.eq_expectedFor_of_expected {f : Field} {operator : Value} {s : Shape}
    (h : f.expected operator = .ok s) : s = f.expectedFor (Operator.ofValue? operator) := by
  unfold expected at h
  split at h
  · cases h
    rfl
  · cases h

/-! ## Messages -/

namespace Defect

/-- The values that are told about a defect of a condition. -/
def told (c : Condition) : Defect → List Value
  | unknownField => [c.field]
  | operatorNotPermitted _ => [c.field, c.operator]
  | invalidValue _ => [c.field, c.value]

/-- A defect is put into words just if every value that is told about it can be written. -/
theorem isWriting_message (c : Condition) (d : Defect) :
    Value.IsWriting (d.message c) ((d.told c).all (·.isWritable)) := by
  simp only [told]
  cases d with
  | unknownField =>
    rw [List.all_cons, List.all_nil, Bool.and_true]
    exact (Value.isWriting_display c.field).map _
  | operatorNotPermitted allowed =>
    simp only [List.all_cons, List.all_nil, Bool.and_true]
    exact (Value.isWriting_display c.field).bind fun _ _ =>
      (Value.isWriting_literal c.operator).map _
  | invalidValue expected =>
    simp only [List.all_cons, List.all_nil, Bool.and_true]
    exact (Value.isWriting_display c.field).bind fun _ _ =>
      (Value.isWriting_literal c.value).map _

/-- What is told about a defect can be written. -/
def isTold (c : Condition) (d : Defect) : Bool := (d.told c).all (·.isWritable)

end Defect

namespace Catalog

/-! ## Conditions that fail -/

/-- Holding the value of a condition against its field meets a date beyond the calendar. -/
def IsStranded (cat : Catalog) (c : Condition) : Prop :=
  ∃ f, cat.find? c.field = some f ∧
    ∃ d ∈ (f.expectedFor (Operator.ofValue? c.operator)).dates c.value, Date.LeavesCalendar d

/-- What can be wrong with a condition.  The value only matters for the last defect. -/
inductive HasDefect (cat : Catalog) (c : Condition) : Defect → Prop
  | unknownField : cat.find? c.field = none → HasDefect cat c .unknownField
  | operatorNotPermitted {f : Field} : cat.find? c.field = some f → f.permits c.operator = false →
      HasDefect cat c (.operatorNotPermitted f.operatorIds)
  | invalidValue {f : Field} : cat.find? c.field = some f →
      (f.expectedFor (Operator.ofValue? c.operator)).admits f c.value = .ok false →
      HasDefect cat c (.invalidValue (f.expectedFor (Operator.ofValue? c.operator)))

/-- Validation of a condition whose operator is a text fails: it meets a date beyond the calendar,
or a defect that cannot be put into words. -/
inductive Fails (cat : Catalog) (c : Condition) : Misuse → Prop
  | stranded : cat.IsStranded c → Fails cat c .range
  | untold {d : Defect} : cat.HasDefect c d → d.isTold c = false → Fails cat c .value

/-- Validation of some conditions fails with the first one that does. -/
inductive FirstFails (cat : Catalog) : List Condition → Misuse → Prop
  | here {c : Condition} {cs : List Condition} {m : Misuse} : cat.Fails c m →
      FirstFails cat (c :: cs) m
  | later {c : Condition} {cs : List Condition} {m : Misuse} : (∀ m, ¬cat.Fails c m) →
      FirstFails cat cs m → FirstFails cat (c :: cs) m

/-- The condition that fails first fails. -/
theorem exists_fails_of_firstFails {cat : Catalog} {cs : List Condition} {m : Misuse}
    (h : cat.FirstFails cs m) : ∃ c ∈ cs, cat.Fails c m := by
  induction h with
  | here h => exact ⟨_, List.mem_cons_self, h⟩
  | later _ _ ih =>
    obtain ⟨c, hc, h⟩ := ih
    exact ⟨c, List.mem_cons_of_mem _ hc, h⟩

/-! ## Complaints -/

section Complaints

variable {cat : Catalog} {c : Condition} {f : Field} {d : Defect} {ds : List Defect} {x : Complaint}
  {xs : List Complaint} {m : Misuse}

/-- Every defect has words just if what is told about it can be written. -/
theorem isWriting_complaint (c : Condition) (d : Defect) :
    Value.IsWriting (complaint c d) (d.isTold c) := (d.isWriting_message c).map _

theorem complaint_eq_ok_iff :
    complaint c d = .ok x ↔ x.defect = d ∧ d.message c = .ok x.message := by
  obtain ⟨d', message⟩ := x
  unfold complaint
  cases d.message c <;> simp [bind, Except.bind, pure, Except.pure, eq_comm]

/-- The complaints about some defects are those of the defects that can be put into words. -/
theorem mem_of_mapM_complaint (h : ds.mapM (complaint c) = .ok xs) :
    x ∈ xs ↔ x.defect ∈ ds ∧ x.defect.message c = .ok x.message := by
  rw [mapM_eq_ok_iff] at h
  induction h with
  | nil => simp
  | @cons d y ds xs hy _ ih =>
    have hy' := complaint_eq_ok_iff.mp hy
    rw [List.mem_cons, List.mem_cons, ih, or_and_right]
    refine or_congr_left ?_
    constructor
    · rintro rfl
      exact ⟨hy'.1, hy'.1 ▸ hy'.2⟩
    · rintro ⟨hd, hmessage⟩
      have hx := complaint_eq_ok_iff.mpr ⟨hd, hd ▸ hmessage⟩
      exact Except.ok.inj (hx.symm.trans hy)

/-- The complaints about some defects are about them in turn. -/
theorem map_defect_of_mapM_complaint (h : ds.mapM (complaint c) = .ok xs) :
    xs.map (·.defect) = ds := by
  rw [mapM_eq_ok_iff] at h
  induction h with
  | nil => rfl
  | cons hx _ ih => rw [List.map_cons, ih, (complaint_eq_ok_iff.mp hx).1]

/-- Defects cannot be put into words just if one of them cannot, and then it is for a value. -/
theorem mapM_complaint_eq_error_iff :
    ds.mapM (complaint c) = .error m ↔ m = .value ∧ ∃ d ∈ ds, d.isTold c = false := by
  rw [(Value.isWriting_mapM (isWriting_complaint c) ds).error_iff, and_comm, List.all_eq_false]
  simp

theorem mem_operatorDefects_iff :
    d ∈ operatorDefects f c ↔ f.permits c.operator = false ∧
      d = .operatorNotPermitted f.operatorIds := by
  unfold operatorDefects
  cases f.permits c.operator <;> simp

/-- The value of a condition cannot be judged just if one of its dates leaves the calendar. -/
theorem valueDefects_eq_error_iff (h : c.operator.isText = true) :
    valueDefects f c = .error m ↔ m = .range ∧
      ∃ d ∈ (f.expectedFor (Operator.ofValue? c.operator)).dates c.value,
        Date.LeavesCalendar d := by
  have hkey : c.operator.isKey = true := by
    cases hop : c.operator <;> simp_all [Value.isText, Value.text?, Value.isKey]
  unfold valueDefects
  simp [bind_eq_error_iff, Field.expected, hkey, Shape.admits_eq_error_iff, pure, Except.pure]

theorem mem_valueDefects_iff (h : valueDefects f c = .ok ds) :
    d ∈ ds ↔ (f.expectedFor (Operator.ofValue? c.operator)).admits f c.value = .ok false ∧
      d = .invalidValue (f.expectedFor (Operator.ofValue? c.operator)) := by
  obtain ⟨expected, hexpected, h⟩ := exists_of_bind_eq_ok h
  obtain ⟨admitted, hadmitted, h⟩ := exists_of_bind_eq_ok h
  cases h
  rw [← Field.eq_expectedFor_of_expected hexpected, hadmitted]
  cases admitted <;> simp

/-- On a registered field, the defects are those of the operator and of the value. -/
theorem hasDefect_iff_of_registered (hf : cat.find? c.field = some f)
    (h : valueDefects f c = .ok ds) :
    cat.HasDefect c d ↔ d ∈ operatorDefects f c ∨ d ∈ ds := by
  rw [mem_operatorDefects_iff, mem_valueDefects_iff h]
  constructor
  · rintro (hnone | ⟨hf', hp⟩ | ⟨hf', ha⟩)
    · cases hf.symm.trans hnone
    · cases hf.symm.trans hf'
      exact .inl ⟨hp, rfl⟩
    · cases hf.symm.trans hf'
      exact .inr ⟨ha, rfl⟩
  · rintro (⟨hp, rfl⟩ | ⟨ha, rfl⟩)
    · exact .operatorNotPermitted hf hp
    · exact .invalidValue hf ha

/-- On a field that is not registered, this is the only defect. -/
theorem hasDefect_iff_of_unregistered (hf : cat.find? c.field = none) :
    cat.HasDefect c d ↔ d = .unknownField := by
  constructor
  · rintro (- | ⟨hf', -⟩ | ⟨hf', -⟩)
    · rfl
    · cases hf.symm.trans hf'
    · cases hf.symm.trans hf'
  · rintro rfl
    exact .unknownField hf

/-- The complaints about a condition are about its defects. -/
theorem mem_complaints_iff (h : cat.complaints c = .ok xs) :
    x ∈ xs ↔ cat.HasDefect c x.defect ∧ x.defect.message c = .ok x.message := by
  unfold complaints at h
  cases hf : cat.find? c.field with
  | none =>
    rw [hf] at h
    rw [mem_of_mapM_complaint h, hasDefect_iff_of_unregistered hf, List.mem_singleton]
  | some f =>
    simp only [hf] at h
    obtain ⟨ofOperator, hoperator, h⟩ := exists_of_bind_eq_ok h
    obtain ⟨ds, hds, h⟩ := exists_of_bind_eq_ok h
    obtain ⟨ofValue, hvalue, h⟩ := exists_of_bind_eq_ok h
    cases h
    rw [List.mem_append, mem_of_mapM_complaint hoperator, mem_of_mapM_complaint hvalue,
      hasDefect_iff_of_registered hf hds, or_and_right]

/-- What is wrong with the operator can always be told, for it is a text on a field that has one for
its key. -/
theorem isTold_of_mem_operatorDefects (hf : cat.find? c.field = some f)
    (hop : c.operator.isText = true) (hd : d ∈ operatorDefects f c) : d.isTold c = true := by
  obtain ⟨-, rfl⟩ := mem_operatorDefects_iff.mp hd
  have hfield : c.field.isWritable = true := by
    cases hfield : c.field <;> rw [hfield] at hf <;> first | rfl | cases hf
  have hoperator : c.operator.isWritable = true := by
    cases hoperator : c.operator <;> rw [hoperator] at hop <;> first | rfl | cases hop
  simp [Defect.isTold, Defect.told, hfield, hoperator]

/-- A condition on a field that is not registered fails just if the field cannot be told. -/
theorem fails_iff_of_unregistered (hf : cat.find? c.field = none) :
    cat.Fails c m ↔ m = .value ∧ ∃ d ∈ [Defect.unknownField], d.isTold c = false := by
  constructor
  · rintro (⟨f, hf', -⟩ | ⟨hd, htold⟩)
    · cases hf.symm.trans hf'
    · exact ⟨rfl, _, List.mem_singleton.mpr ((hasDefect_iff_of_unregistered hf).mp hd), htold⟩
  · rintro ⟨rfl, d, hd, htold⟩
    rw [List.mem_singleton] at hd
    exact .untold ((hasDefect_iff_of_unregistered hf).mpr hd) htold

section Registered

variable (hf : cat.find? c.field = some f) (hop : c.operator.isText = true)
include hf hop

/-- A condition whose value cannot be judged fails with the misuse that was met. -/
theorem fails_iff_of_error {m' : Misuse} (h : valueDefects f c = .error m') :
    cat.Fails c m ↔ m' = m := by
  obtain ⟨rfl, hdate⟩ := (valueDefects_eq_error_iff hop).mp h
  constructor
  · rintro (- | ⟨hnone | ⟨hf', hp⟩ | ⟨hf', ha⟩, hunfit⟩)
    · rfl
    · cases hf.symm.trans hnone
    · cases hf.symm.trans hf'
      have htold := isTold_of_mem_operatorDefects hf hop (mem_operatorDefects_iff.mpr ⟨hp, rfl⟩)
      cases htold.symm.trans hunfit
    · cases hf.symm.trans hf'
      cases ha.symm.trans (Shape.admits_eq_error_iff.mpr ⟨rfl, hdate⟩)
  · rintro rfl
    exact .stranded ⟨f, hf, hdate⟩

/-- A condition whose value is judged fails just if what is wrong with the value cannot be told. -/
theorem fails_iff_of_ok (h : valueDefects f c = .ok ds) :
    cat.Fails c m ↔ m = .value ∧ ∃ d ∈ ds, d.isTold c = false := by
  constructor
  · rintro (⟨f', hf', hdate⟩ | ⟨hd, hunfit⟩)
    · cases hf.symm.trans hf'
      cases h.symm.trans ((valueDefects_eq_error_iff hop).mpr ⟨rfl, hdate⟩)
    · rcases (hasDefect_iff_of_registered hf h).mp hd with hd | hd
      · cases (isTold_of_mem_operatorDefects hf hop hd).symm.trans hunfit
      · exact ⟨rfl, _, hd, hunfit⟩
  · rintro ⟨rfl, d, hd, hunfit⟩
    exact .untold ((hasDefect_iff_of_registered hf h).mpr (.inr hd)) hunfit

end Registered

/-- Checking a condition meets a misuse just if the condition fails with it. -/
theorem complaints_eq_error_iff (hop : c.operator.isText = true) :
    cat.complaints c = .error m ↔ cat.Fails c m := by
  unfold complaints
  cases hf : cat.find? c.field with
  | none =>
    dsimp only
    rw [mapM_complaint_eq_error_iff, fails_iff_of_unregistered hf]
  | some f =>
    -- the defect of the operator is always told, so what fails is behind it
    obtain ⟨ofOperator, hoperator⟩ :=
      (Value.isWriting_mapM (isWriting_complaint c) _).exists_ok_iff.mpr
        (List.all_eq_true.mpr fun d => isTold_of_mem_operatorDefects hf hop)
    dsimp only
    rw [hoperator]
    cases hds : valueDefects f c with
    | error m' =>
      rw [fails_iff_of_error hf hop hds]
      exact iff_of_eq (Except.error.injEq m' m)
    | ok ds =>
      have hright : (do
          let ofValue ← ds.mapM (complaint c)
          return ofOperator ++ ofValue : Except Misuse (List Complaint)) = .error m ↔
            ds.mapM (complaint c) = .error m := by
        rw [bind_eq_error_iff]
        simp [pure, Except.pure]
      rw [fails_iff_of_ok hf hop hds, ← mapM_complaint_eq_error_iff]
      exact hright

end Complaints

/-! ## Expressions -/

variable {cat : Catalog} {p : Path × Condition} {es : List (Path × Condition)}

theorem violationsAt_eq_error_iff (h : p.2.operator.isText = true) {m : Misuse} :
    cat.violationsAt p = .error m ↔ cat.Fails p.2 m := by
  rw [← complaints_eq_error_iff h, violationsAt]
  cases cat.complaints p.2 <;> simp [Except.map]

/-- The violations at a condition are its defects, each with its message. -/
theorem mem_violationsAt_iff {vs : List Violation} (h : cat.violationsAt p = .ok vs)
    {v : Violation} :
    v ∈ vs ↔ (v.path, v.condition) = p ∧ cat.HasDefect v.condition v.defect ∧
      v.defect.message v.condition = .ok v.message := by
  obtain ⟨d, c', path, message⟩ := v
  unfold violationsAt at h
  cases hxs : cat.complaints p.2 with
  | error m => simp [hxs, Except.map] at h
  | ok xs =>
    rw [hxs] at h
    cases h
    rw [List.mem_map]
    constructor
    · rintro ⟨x, hx, heq⟩
      cases heq
      exact ⟨rfl, (mem_complaints_iff hxs).mp hx⟩
    · rintro ⟨rfl, hd⟩
      exact ⟨⟨d, message⟩, (mem_complaints_iff hxs).mpr hd, rfl⟩

/-- Checking conditions meets the misuse of the first one that fails. -/
theorem violationsOf_eq_error_iff (h : ∀ p ∈ es, p.2.operator.isText = true) {m : Misuse} :
    cat.violationsOf es = .error m ↔ cat.FirstFails (es.map (·.2)) m := by
  induction es with
  | nil =>
    rw [violationsOf, List.map_nil]
    exact iff_of_false nofun nofun
  | cons p es ih =>
    rw [List.forall_mem_cons] at h
    have hfirst {m : Misuse} := @violationsAt_eq_error_iff cat p h.1 m
    rw [violationsOf, bind_eq_error_iff, hfirst, List.map_cons]
    constructor
    · rintro (hfails | ⟨vs, hvs, hrest⟩)
      · exact .here hfails
      · refine .later ?_ ((ih h.2).mp ?_)
        · intro m' hfails
          cases hvs.symm.trans (hfirst.mpr hfails)
        · simpa [bind_eq_error_iff, pure, Except.pure] using hrest
    · rintro (hfails | ⟨hpasses, hrest⟩)
      · exact .inl hfails
      · right
        cases hvs : cat.violationsAt p with
        | error m' => exact absurd (hfirst.mp hvs) (hpasses m')
        | ok vs => exact ⟨vs, rfl, bind_eq_error_iff.mpr (.inl ((ih h.2).mpr hrest))⟩

/-- The violations are the defects of the conditions, each with its path and message. -/
theorem mem_violationsOf_iff {vs : List Violation} (h : cat.violationsOf es = .ok vs)
    {v : Violation} :
    v ∈ vs ↔ (v.path, v.condition) ∈ es ∧ cat.HasDefect v.condition v.defect ∧
      v.defect.message v.condition = .ok v.message := by
  induction es generalizing vs with
  | nil =>
    cases h
    simp
  | cons p es ih =>
    obtain ⟨ws, hws, h⟩ := exists_of_bind_eq_ok h
    obtain ⟨us, hus, h⟩ := exists_of_bind_eq_ok h
    cases h
    rw [List.mem_append, mem_violationsAt_iff hws, ih hus, List.mem_cons, or_and_right]

/-- Some condition fails first, or none fails. -/
theorem firstFails_cases (cat : Catalog) (cs : List Condition) :
    (∃ m, cat.FirstFails cs m) ∨ ∀ c ∈ cs, ∀ m, ¬cat.Fails c m := by
  induction cs with
  | nil => exact .inr nofun
  | cons c cs ih =>
    by_cases hc : ∃ m, cat.Fails c m
    · obtain ⟨m, hm⟩ := hc
      exact .inl ⟨m, .here hm⟩
    · rw [not_exists] at hc
      rcases ih with ⟨m, hm⟩ | hpasses
      · exact .inl ⟨m, .later hc hm⟩
      · exact .inr (List.forall_mem_cons.mpr ⟨hc, hpasses⟩)

end Catalog

/-- Validation has an answer just if no condition meets a date beyond the calendar or a defect that
cannot be put into words, and otherwise it fails with the first condition that does.  An answer has
the defects of the conditions, each with the condition, the way to it and its message. -/
theorem validate_answers_iff {cat : Catalog} {e : Expression}
    (h : ∀ c ∈ e.leaves, c.operator.isText = true) :
    ((∃ vs, cat.validate e = .ok vs) ↔ ∀ c ∈ e.leaves, ∀ m, ¬cat.Fails c m) ∧
    (∀ m, cat.validate e = .error m ↔ cat.FirstFails e.leaves m) ∧
    ∀ vs, cat.validate e = .ok vs → ∀ v,
      v ∈ vs ↔ (v.path, v.condition) ∈ e.conditions ∧ cat.HasDefect v.condition v.defect ∧
        v.defect.message v.condition = .ok v.message := by
  have hleaves : e.leaves = e.conditions.map (·.2) := rfl
  have htexts : ∀ p ∈ e.conditions, p.2.operator.isText = true := by
    rwa [hleaves, List.forall_mem_map] at h
  have herror : ∀ m, cat.validate e = .error m ↔ cat.FirstFails e.leaves m := fun m =>
    Catalog.violationsOf_eq_error_iff htexts
  refine ⟨?_, herror, fun vs hvs v => Catalog.mem_violationsOf_iff hvs⟩
  constructor
  · rintro ⟨vs, hvs⟩
    rcases cat.firstFails_cases e.leaves with ⟨m, hm⟩ | hpasses
    · cases hvs.symm.trans ((herror m).mpr hm)
    · exact hpasses
  · intro hpasses
    cases hv : cat.validate e with
    | ok vs => exact ⟨vs, rfl⟩
    | error m =>
      obtain ⟨c, hc, hfails⟩ := Catalog.exists_fails_of_firstFails ((herror m).mp hv)
      exact absurd hfails (hpasses c hc m)

/-- A pair whose second item is no date is reported, with a first item at the end of the calendar.
-/
theorem validate_answers_iff_bundled :
    let c : Condition := {
      field := .text "date.event_date"
      operator := .text "between"
      value := .tuple [.text "9999-12-31T23:59:59-00:00", .map [(.null, .float 0)]] }
    let e : Expression := {
      children := [.group .or [.condition { c with operator := .text "in" }, .condition c] true] }
    (∀ c ∈ e.leaves, c.operator.isText = true) ∧
    ∃ vs, Catalog.bundled.validate e = .ok vs ∧
      (∀ c ∈ e.leaves, ∀ m, ¬Catalog.bundled.Fails c m) ∧
      ∃ message, ⟨.invalidValue .dateRange, c, [0, 1], message⟩ ∈ vs := by
  intro c e
  have h : ∀ c ∈ e.leaves, c.operator.isText = true := by decide
  obtain ⟨hanswers, -, hmem⟩ := @validate_answers_iff .bundled e h
  obtain ⟨vs, hvs⟩ : ∃ vs, Catalog.bundled.validate e = .ok vs := ⟨_, rfl⟩
  obtain ⟨message, hmessage⟩ :
      ∃ message, (Defect.invalidValue .dateRange).message c = .ok message := ⟨_, rfl⟩
  refine ⟨h, vs, hvs, hanswers.mp ⟨vs, hvs⟩, message, (hmem vs hvs _).mpr ⟨?_, ?_, hmessage⟩⟩
  · simp [e, Expression.conditions, Expression.toNode, Node.conditions, Node.conditionsFrom]
  · obtain ⟨f, hf, hexpected⟩ : ∃ f, Catalog.bundled.find? c.field = some f ∧
        f.expectedFor (Operator.ofValue? c.operator) = .dateRange := ⟨_, rfl, rfl⟩
    rw [← hexpected]
    exact .invalidValue hf (by rw [hexpected]; rfl)

/-- There is no answer for a date whose offset takes it out of the first year. -/
theorem validate_stranded :
    let e : Expression := {
      children := [
        .condition { field := .text "date.event_date", operator := .text "gte",
                     value := .text "0001-01-01T00:00:00+01:00" }] }
    Catalog.bundled.validate e = .error .range := by
  rfl

end Cohort
