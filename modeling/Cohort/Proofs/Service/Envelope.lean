import Cohort.Proofs.Filters.Adaptation
import Cohort.Proofs.Filters.Envelope
import Cohort.Proofs.Search.Contribution
import Cohort.Proofs.Service.Gate
import Cohort.Proofs.Validation.Report
import Cohort.Proofs.Validation.Totality

/-!
# Envelopes and their stored form

An envelope and its stored form are compiled alike.  The one difference that
reading makes is in the categories of conditions, and neither what is compiled
nor what is told about violations depends on them.  Only one side of an
envelope counts: the tree in boolean mode, and else the simple form.
-/

namespace Cohort

open Cohort.Action

/-! ## Conditions that differ in their categories -/

/-- Two conditions are the same but for their categories. -/
def Condition.SameButCategory (c c' : Condition) : Prop := ∃ category, c' = { c with category }

/-- Two expressions are the same but for the categories of their conditions. -/
def Expression.SameButCategories (e e' : Expression) : Prop :=
  e.toNode.Matches Condition.SameButCategory e'.toNode

open Condition (SameButCategory)

section SameButCategory

variable {cat : Catalog} {e e' : Expression}

theorem Condition.SameButCategory.sameTest {c c' : Condition} (h : SameButCategory c c') :
    c.SameTest c' := by
  obtain ⟨category, rfl⟩ := h
  exact ⟨rfl, rfl, rfl⟩

/-- What is told about violations does not depend on categories. -/
theorem map_report_validate (cat : Catalog) (h : e.SameButCategories e') :
    (cat.validate e).map (List.map Violation.report) =
      (cat.validate e').map (List.map Violation.report) :=
  map_report_violationsOf cat (h.conditions.imp fun _ _ hp => ⟨hp.1, hp.2.sameTest⟩)

/-- Expressions that differ in categories alone are both reported on, in the same words, or both
meet the same misuse. -/
theorem validate_cases (cat : Catalog) (h : e.SameButCategories e') :
    (∃ m, cat.validate e = .error m ∧ cat.validate e' = .error m) ∨
    ∃ vs vs', cat.validate e = .ok vs ∧ cat.validate e' = .ok vs' ∧
      vs.map Violation.report = vs'.map Violation.report := by
  have hreport := map_report_validate cat h
  cases hvs : cat.validate e with
  | error m =>
    cases hvs' : cat.validate e' with
    | error m' =>
      rw [hvs, hvs'] at hreport
      cases hreport
      exact .inl ⟨m, rfl, rfl⟩
    | ok vs' =>
      rw [hvs, hvs'] at hreport
      cases hreport
  | ok vs =>
    cases hvs' : cat.validate e' with
    | error m' =>
      rw [hvs, hvs'] at hreport
      cases hreport
    | ok vs' =>
      rw [hvs, hvs'] at hreport
      exact .inr ⟨vs, vs', rfl, rfl, Except.ok.inj hreport⟩

/-- Clauses do not depend on categories. -/
theorem query_compile_eq (d : Sql.Dialect) (h : e.SameButCategories e') :
    (Sql.compile d cat e).query = (Sql.compile d cat e').query := by
  refine Sql.query_compile_eq_of_matches ?_ ?_ h
  · rintro c _ ⟨category, rfl⟩
    rfl
  · rintro c _ ⟨category, rfl⟩ next
    rfl

/-- Search filters do not depend on categories. -/
theorem searchFilter_eq (h : e.SameButCategories e') :
    Search.filter cat e = Search.filter cat e' := by
  refine Search.filter_eq_of_matches ?_ ?_ h
  · rintro c _ ⟨category, rfl⟩
    rfl
  · rintro c _ ⟨category, rfl⟩
    rfl

end SameButCategory

/-! ## The side that counts -/

namespace Envelope

/-- The simple form of an envelope counts. -/
def UsesSimple (f : Envelope) : Prop := f.mode = .simple ∨ f.expression = none

/-- Two envelopes are the same in what counts. -/
def CountsAs (f g : Envelope) : Prop :=
  (f.mode = .boolean ∧ g.mode = .boolean ∧ ∃ e, f.expression = some e ∧ g.expression = some e) ∨
    (f.UsesSimple ∧ g.UsesSimple ∧ f.simple = g.simple)

variable {f g : Envelope} {r : Reading}

theorem UsesSimple.restored (h : f.UsesSimple) : (f.restored r).UsesSimple := by
  obtain hmode | hnone := h
  · exact .inl hmode
  · exact .inr (by rw [Envelope.restored, hnone, Option.map_none])

/-- Reading back leaves aside what does not count. -/
theorem CountsAs.restored (h : f.CountsAs g) : (f.restored r).CountsAs (g.restored r) := by
  obtain ⟨hf, hg, e, hfe, hge⟩ | ⟨hf, hg, hsimple⟩ := h
  · refine .inl ⟨hf, hg, e.graft fun c => .condition (r.restored c), ?_, ?_⟩
    · rw [Envelope.restored, hfe, Option.map_some]
    · rw [Envelope.restored, hge, Option.map_some]
  · exact .inr ⟨hf.restored, hg.restored, hsimple⟩

end Envelope

namespace Service

variable {s : Service} {f g : Envelope}

/-- Where the simple form counts, it is adapted. -/
theorem adaptationOf_of_usesSimple (h : f.UsesSimple) :
    s.adaptationOf f = SimpleForm.adaptation s.catalog (.map f.simple) := by
  unfold adaptationOf
  obtain hmode | hnone := h
  · rw [hmode]
  · rw [hnone]
    cases f.mode <;> rfl

/-- Where the simple form counts, the expression is the adapted one. -/
theorem expressionOf_of_usesSimple (h : f.UsesSimple) :
    s.expressionOf f = SimpleForm.toExpression s.catalog (.map f.simple) := by
  rw [expressionOf, adaptationOf_of_usesSimple h]
  rfl

/-- Where the tree counts, there is nothing to adapt and nothing to note. -/
theorem adaptationOf_of_boolean {e : Expression} (hmode : f.mode = .boolean)
    (he : f.expression = some e) : s.adaptationOf f = { expression := .ok e, notes := [] } := by
  unfold adaptationOf
  rw [hmode, he]

/-- Where the tree counts, it is the expression. -/
theorem expressionOf_of_boolean {e : Expression} (hmode : f.mode = .boolean)
    (he : f.expression = some e) : s.expressionOf f = .ok e := by
  rw [expressionOf, adaptationOf_of_boolean hmode he]

/-- Every envelope has a side that counts. -/
theorem usesSimple_or_boolean (f : Envelope) :
    f.UsesSimple ∨ f.mode = .boolean ∧ ∃ e, f.expression = some e := by
  unfold Envelope.UsesSimple
  cases f.mode <;> cases f.expression <;> simp

/-- Filters that are loaded as envelopes with the same counting part come to the same, notes
included. -/
theorem resolve_eq_of_countsAs {i j : FiltersInput} (hi : s.load i = .ok f) (hj : s.load j = .ok g)
    (h : f.CountsAs g) : s.resolve i = s.resolve j := by
  have hsame : s.adaptationOf f = s.adaptationOf g := by
    obtain ⟨hf, hg, e, hfe, hge⟩ | ⟨hf, hg, hsimple⟩ := h
    · rw [adaptationOf_of_boolean hf hfe, adaptationOf_of_boolean hg hge]
    · rw [adaptationOf_of_usesSimple hf, adaptationOf_of_usesSimple hg, hsimple]
  unfold resolve resolve.liftExcept
  rw [hi, hj]
  dsimp only
  rw [pure_bind, pure_bind, hsame]

/-! ## Loading -/

/-- The stored form of an envelope is told from a bare simple form, and read back. -/
theorem load_toValue (h : f.IsStorable s.maxDepth) :
    s.load (.stored f.toValue) = .ok (f.restored s.reading) := by
  have hread : Envelope.ofValue s.reading f.toValue = .ok (f.restored s.reading) :=
    Envelope.ofValue_toValue h
  obtain ⟨names, hparts, hkeys, hnames⟩ : ∃ names, f.toValue.parts? = some names ∧
      names.all Value.isKey = true ∧ namesEnvelope names = true := by
    rw [Envelope.toValue_eq]
    refine ⟨f.entries.map (·.1), rfl, ?_, ?_⟩
    · unfold Envelope.entries
      cases f.expression <;> rfl
    · unfold Envelope.entries
      cases f.expression <;> rfl
  have htruthy : f.toValue.truthy = true := rfl
  unfold load
  simp only [htruthy, hparts, hkeys, hnames, hread, Bool.not_true, Bool.false_eq_true, if_false,
    if_true]
  rfl

/-- An envelope that is already read comes to its expression. -/
theorem resolution_envelope (s : Service) (f : Envelope) :
    s.resolution (.envelope f) = (s.expressionOf f).mapError .misuse := rfl

/-- A stored envelope comes to the expression of the envelope as it is read back. -/
theorem resolution_toValue (h : f.IsStorable s.maxDepth) :
    s.resolution (.stored f.toValue) =
      (s.expressionOf (f.restored s.reading)).mapError .misuse := by
  unfold resolution
  rw [load_toValue h]
  rfl

/-- Reading back changes no more than categories in what an envelope stands for. -/
theorem expressionOf_restored (s : Service) (f : Envelope) (r : Reading) :
    (∃ m, s.expressionOf f = .error m ∧ s.expressionOf (f.restored r) = .error m) ∨
    ∃ e e', s.expressionOf f = .ok e ∧ s.expressionOf (f.restored r) = .ok e' ∧
      e.SameButCategories e' := by
  obtain hsimple | ⟨hmode, e, he⟩ := usesSimple_or_boolean f
  · have hsame : s.expressionOf (f.restored r) = s.expressionOf f := by
      rw [expressionOf_of_usesSimple hsimple, expressionOf_of_usesSimple hsimple.restored]
      rfl
    rw [hsame]
    cases s.expressionOf f with
    | error m => exact .inl ⟨m, rfl, rfl⟩
    | ok e => exact .inr ⟨e, e, rfl, rfl, Node.matches_self (fun c => ⟨c.category, rfl⟩) _⟩
  · have hrestored : (f.restored r).expression =
        some (e.graft fun c => .condition (r.restored c)) := by
      rw [Envelope.restored, he, Option.map_some]
    refine .inr ⟨_, _, expressionOf_of_boolean hmode he,
      expressionOf_of_boolean (f := f.restored r) hmode hrestored, ?_⟩
    unfold Expression.SameButCategories
    rw [Expression.toNode_graft]
    exact Node.matches_graft _ fun c _ => ⟨_, rfl⟩

/-- The conditions of the side that counts name their operators by texts. -/
theorem isText_operator_of_expressionOf (h : f.IsStorable s.maxDepth) {e : Expression}
    (he : s.expressionOf f = .ok e) : ∀ c ∈ e.leaves, c.operator.isText = true := by
  intro c hc
  obtain hsimple | ⟨hmode, e', he'⟩ := usesSimple_or_boolean f
  · rw [expressionOf_of_usesSimple hsimple, SimpleForm.toExpression_eq] at he
    split at he
    case isTrue =>
      cases he
      rw [SimpleForm.leaves_of_conditions] at hc
      obtain ⟨op, hop⟩ := SimpleForm.exists_operator_of_mem_conditions hc
      rw [hop]
      rfl
    case isFalse => cases he
  · cases he.symm.trans (expressionOf_of_boolean hmode he')
    obtain ⟨operator, hoperator⟩ := ((h e he').1 c hc).operator
    rw [hoperator]
    rfl

/-! ## Outcomes -/

/-- Two compilations end alike: with the same queries, or with rejections that tell the same
violations. -/
inductive EndsAlike : Except Failure CompiledQueries → Except Failure CompiledQueries → Prop
  | compiled (q : CompiledQueries) : EndsAlike (.ok q) (.ok q)
  | rejected {vs vs' : List Violation} : vs.map Violation.report = vs'.map Violation.report →
    EndsAlike (.error (.rejected vs)) (.error (.rejected vs'))

/-- Whether all that the two compilations write for a condition can be written. -/
def writes (s : Service) (c : Condition) : Bool :=
  Sql.isWritable { slots := s.slots } s.catalog c && Search.isWritable s.catalog c

/-- A misuse leaves neither queries nor violations: the simple form has a note that cannot be
written, strict validation fails, or something that cannot be written stands in a condition that
passes. -/
inductive IsStuck (s : Service) : Except Misuse Expression → Misuse → Prop
  | adaptation {m : Misuse} : IsStuck s (.error m) m
  | validation {e : Expression} {m : Misuse} : s.strict = true → s.catalog.FirstFails e.leaves m →
    IsStuck s (.ok e) m
  | compilation {e : Expression} : s.Passes e → (∃ c ∈ e.leaves, s.writes c = false) →
    IsStuck s (.ok e) .value

variable {e e' : Expression}

/-- What passes has queries just if all that has to be written can be. -/
theorem compiled_cases (s : Service) (e : Expression) :
    (∃ q, s.compiled e = .ok q ∧ ∀ c ∈ e.leaves, s.writes c = true) ∨
    (s.compiled e = .error (.misuse .value) ∧ ∃ c ∈ e.leaves, s.writes c = false) := by
  unfold compiled
  cases hq : (Sql.compile { slots := s.slots } s.catalog e).query with
  | error m =>
    obtain ⟨rfl, -⟩ := exists_of_query_eq_error (fun f _ => ⟨f.column, rfl⟩) hq
    rw [Sql.compile_eq] at hq
    cases hm : Sql.hindrance? { slots := s.slots } s.catalog e with
    | none =>
      rw [hm] at hq
      cases hq
    | some m =>
      obtain ⟨c, hc, hobstacle⟩ := List.exists_of_findSome?_eq_some hm
      exact .inr ⟨rfl, c, hc, by rw [writes, Sql.isWritable, hobstacle]; rfl⟩
  | ok q =>
    have hsql : ∀ c ∈ e.leaves, Sql.isWritable { slots := s.slots } s.catalog c = true := by
      refine List.all_eq_true.mp (Sql.all_isWritable_iff.mpr ?_)
      rw [Sql.compile_eq] at hq
      cases hm : Sql.hindrance? { slots := s.slots } s.catalog e with
      | none => exact hm
      | some m =>
        rw [hm] at hq
        cases hq
    by_cases hsearch : ∀ c ∈ e.leaves, Search.isWritable s.catalog c = true
    · rw [Search.filter_of_writable hsearch]
      exact .inl ⟨_, rfl, fun c hc => by rw [writes, hsql c hc, hsearch c hc]; rfl⟩
    · obtain ⟨c, hc, hunfit⟩ : ∃ c ∈ e.leaves, Search.isWritable s.catalog c = false := by
        simpa using hsearch
      rw [Search.filter_of_not_isWritable hc hunfit]
      exact .inr ⟨rfl, c, hc, by rw [writes, hunfit, Bool.and_false]⟩

/-- What is compiled does not depend on categories. -/
theorem compiled_eq (h : e.SameButCategories e') : s.compiled e = s.compiled e' := by
  unfold compiled
  rw [query_compile_eq _ h, searchFilter_eq h]

/-- Where operators are texts, validation meets the misuse of the first condition that fails. -/
theorem validate_eq_error_iff (h : ∀ c ∈ e.leaves, c.operator.isText = true) {m : Misuse} :
    s.catalog.validate e = .error m ↔ s.catalog.FirstFails e.leaves m := by
  have hleaves : e.leaves = e.conditions.map (·.2) := rfl
  rw [hleaves, List.forall_mem_map] at h
  exact Catalog.violationsOf_eq_error_iff h

/-- What passes is compiled alike, unless something cannot be written. -/
theorem exists_endsAlike_of_passes (h : e.SameButCategories e') (hpasses : s.Passes e)
    (hpasses' : s.Passes e') (hvalid : ∀ m, s.strict = true → ¬s.catalog.FirstFails e.leaves m) :
    ∃ r r', (∀ before, (s.compile e).Does before [] r ∧ (s.compile e').Does before [] r') ∧
      (∀ m, s.IsStuck (.ok e) m → r = .error (.misuse m) ∧ r' = .error (.misuse m)) ∧
      ((∀ m, ¬s.IsStuck (.ok e) m) → EndsAlike r r') := by
  refine ⟨s.compiled e, s.compiled e', fun before => ⟨does_compile_of_passes hpasses before,
    does_compile_of_passes hpasses' before⟩, ?_⟩
  rw [← compiled_eq h]
  obtain ⟨q, hq, hwrites⟩ | ⟨hm, hunfit⟩ := s.compiled_cases e
  · rw [hq]
    refine ⟨?_, fun _ => .compiled q⟩
    rintro m (_ | ⟨hstrict, hfails⟩ | ⟨-, c, hc, hunfit⟩)
    · exact absurd hfails (hvalid m hstrict)
    · cases hunfit.symm.trans (hwrites c hc)
  · rw [hm]
    refine ⟨?_, fun hfree => absurd (.compilation hpasses hunfit) (hfree .value)⟩
    rintro m (_ | ⟨hstrict, hfails⟩ | _)
    · exact absurd hfails (hvalid m hstrict)
    · exact ⟨rfl, rfl⟩

/-- Expressions that differ in categories alone are compiled alike, unless a misuse leaves no answer
for either. -/
theorem exists_endsAlike (h : e.SameButCategories e')
    (htext : ∀ c ∈ e.leaves, c.operator.isText = true) :
    ∃ r r', (∀ before, (s.compile e).Does before [] r ∧ (s.compile e').Does before [] r') ∧
      (∀ m, s.IsStuck (.ok e) m → r = .error (.misuse m) ∧ r' = .error (.misuse m)) ∧
      ((∀ m, ¬s.IsStuck (.ok e) m) → EndsAlike r r') := by
  cases hstrict : s.strict with
  | false =>
    have hlax (P : Prop) : s.strict = true → P := fun htrue => nomatch hstrict.symm.trans htrue
    exact exists_endsAlike_of_passes h (hlax _) (hlax _) fun m => hlax _
  | true =>
    obtain ⟨m, hvs, hvs'⟩ | ⟨vs, vs', hvs, hvs', hsame⟩ := validate_cases s.catalog h
    · have hfails := (validate_eq_error_iff htext).mp hvs
      refine ⟨.error (.misuse m), .error (.misuse m), fun before => ⟨?_, ?_⟩, ?_,
        fun hfree => absurd (.validation hstrict hfails) (hfree m)⟩
      · exact (does_gate_of_error hstrict hvs).bind_error
      · exact (does_gate_of_error hstrict hvs').bind_error
      · rintro m' (_ | ⟨-, hfails'⟩ | ⟨hpasses, -⟩)
        · cases hvs.symm.trans ((validate_eq_error_iff htext).mpr hfails')
          exact ⟨rfl, rfl⟩
        · cases hvs.symm.trans (hpasses hstrict)
    · have hvalid : ∀ m, s.strict = true → ¬s.catalog.FirstFails e.leaves m := fun m _ hfails =>
        nomatch hvs.symm.trans ((validate_eq_error_iff htext).mpr hfails)
      by_cases hnil : vs = []
      · subst hnil
        have hnil' : vs' = [] := List.map_eq_nil_iff.mp hsame.symm
        subst hnil'
        exact exists_endsAlike_of_passes h (fun _ => hvs) (fun _ => hvs') hvalid
      · have hnil' : vs' ≠ [] := by
          rintro rfl
          exact hnil (List.map_eq_nil_iff.mp hsame)
        refine ⟨.error (.rejected vs), .error (.rejected vs'), fun before => ⟨?_, ?_⟩, ?_,
          fun _ => .rejected hsame⟩
        · exact (does_gate_of_violations hstrict hvs hnil).bind_error
        · exact (does_gate_of_violations hstrict hvs' hnil').bind_error
        · rintro m (_ | ⟨-, hfails⟩ | ⟨hpasses, -⟩)
          · exact absurd hfails (hvalid m hstrict)
          · exact absurd (Except.ok.inj (hvs.symm.trans (hpasses hstrict))) hnil

/-- An envelope and its stored form are compiled alike, unless a misuse leaves no answer for either:
then both end with it.  Without a catalog the stored form of an envelope with a well-formed tree is
read back as it was.  What is told of violations, the queries and the filters do not depend on
categories, and what does not count in an envelope makes no difference. -/
theorem compileFilters_toValue (s : Service) (f : Envelope) (h : f.IsStorable s.maxDepth) :
    ((∀ e ∈ f.expression, e.IsWellFormed) →
      Envelope.ofValue { maxDepth := s.maxDepth } f.toValue = .ok f) ∧
    (∃ r r', (∀ before, (s.compileFilters (.envelope f)).Does before [] r ∧
        (s.compileFilters (.stored f.toValue)).Does before [] r') ∧
      (∀ m, s.IsStuck (s.expressionOf f) m →
        r = .error (.misuse m) ∧ r' = .error (.misuse m)) ∧
      ((∀ m, ¬s.IsStuck (s.expressionOf f) m) → EndsAlike r r')) ∧
    (∀ e e' : Expression, e.SameButCategories e' →
      (s.catalog.validate e).map (List.map Violation.report) =
        (s.catalog.validate e').map (List.map Violation.report) ∧
      (∀ d, (Sql.compile d s.catalog e).query = (Sql.compile d s.catalog e').query) ∧
      Search.filter s.catalog e = Search.filter s.catalog e') ∧
    ∀ g : Envelope, g.IsStorable s.maxDepth → f.CountsAs g →
      s.compileFilters (.envelope f) = s.compileFilters (.envelope g) ∧
      s.compileFilters (.stored f.toValue) = s.compileFilters (.stored g.toValue) := by
  refine ⟨?_, ?_, ?_, ?_⟩
  · intro hwell
    rw [Envelope.ofValue_toValue h, Envelope.restored_of_isWellFormed hwell]
  · have hmemory := resolution_envelope s f
    have hstored := resolution_toValue h
    obtain ⟨m, he, he'⟩ | ⟨e, e', he, he', hsame⟩ := expressionOf_restored s f s.reading
    · rw [he] at hmemory ⊢
      rw [he'] at hstored
      refine ⟨.error (.misuse m), .error (.misuse m), fun before =>
        ⟨(does_resolve_of_error hmemory).bind_error, (does_resolve_of_error hstored).bind_error⟩,
        ?_, fun hfree => absurd .adaptation (hfree m)⟩
      rintro _ ⟨⟩
      exact ⟨rfl, rfl⟩
    · have htext := isText_operator_of_expressionOf h he
      rw [he] at hmemory ⊢
      rw [he'] at hstored
      obtain ⟨r, r', hdoes, hends⟩ := exists_endsAlike hsame htext
      refine ⟨r, r', fun before => ⟨?_, ?_⟩, hends⟩
      · exact (Resolves.does_resolve hmemory).bind_silent (hdoes before).1
      · exact (Resolves.does_resolve hstored).bind_silent (hdoes before).2
  · intro e e' hsame
    exact ⟨map_report_validate _ hsame, fun d => query_compile_eq d hsame, searchFilter_eq hsame⟩
  · intro g hg hcounts
    unfold compileFilters
    rw [resolve_eq_of_countsAs (i := .envelope f) (j := .envelope g) rfl rfl hcounts,
      resolve_eq_of_countsAs (load_toValue h) (load_toValue hg) hcounts.restored]
    exact ⟨rfl, rfl⟩

/-- An envelope in boolean mode, and the stored form of one that differs in what does not count. -/
theorem compileFilters_toValue_bundled :
    let s : Service := { catalog := .bundled }
    let e : Expression := .alone {
      field := .text "intent.score", operator := .text "gte", value := .int 5 }
    let f : Envelope := {
      mode := .boolean
      simple := [(.text "daysBack", .int 7)]
      expression := some e }
    let g : Envelope := { f with simple := [] }
    f.IsStorable s.maxDepth ∧ (∀ e ∈ f.expression, e.IsWellFormed) ∧
    g.IsStorable s.maxDepth ∧ f.CountsAs g ∧ (∀ m, ¬s.IsStuck (s.expressionOf f) m) ∧
    Envelope.ofValue { maxDepth := s.maxDepth } f.toValue = .ok f ∧
    ∃ r r', (s.compileFilters (.envelope f)).Does [] [] r ∧
      (s.compileFilters (.stored g.toValue)).Does [] [] r' ∧ EndsAlike r r' := by
  intro s e f g
  have hwell : e.IsWellFormed := by
    unfold Expression.IsWellFormed
    rw [Expression.leaves_alone, List.forall_mem_singleton]
    exact ⟨⟨_, rfl⟩, ⟨_, rfl⟩, .inl rfl⟩
  have hdepth : (e.depth : Int) ≤ s.maxDepth := by decide
  have hf : f.IsStorable s.maxDepth := by
    rintro _ ⟨⟩
    exact ⟨fun c hc => (hwell c hc).isStorable, hdepth⟩
  have hg : g.IsStorable s.maxDepth := hf
  have hcounts : f.CountsAs g := .inl ⟨rfl, rfl, e, rfl, rfl⟩
  have hexpression : ∀ e ∈ f.expression, e.IsWellFormed := by
    rintro _ ⟨⟩
    exact hwell
  have hfree : ∀ m, ¬s.IsStuck (s.expressionOf f) m := by
    have he : s.expressionOf f = .ok e := rfl
    rw [he]
    rintro m (_ | ⟨-, hfails⟩ | ⟨-, c, hc, hunfit⟩)
    · have herror := (validate_eq_error_iff (isText_operator_of_expressionOf hf he)).mpr hfails
      cases herror
    · rw [Expression.leaves_alone, List.mem_singleton] at hc
      rw [hc] at hunfit
      cases hunfit
  obtain ⟨hread, ⟨r, r', hdoes, -, halike⟩, -, hside⟩ := compileFilters_toValue s f hf
  obtain ⟨-, hstored⟩ := hside g hg hcounts
  obtain ⟨hdoes, hdoes'⟩ := hdoes []
  rw [hstored] at hdoes'
  exact ⟨hf, hexpression, hg, hcounts, hfree, hread hexpression, r, r', hdoes, hdoes',
    halike hfree⟩

/-- A date whose offset takes it out of the first year leaves neither queries nor violations. -/
theorem compileFilters_stuck :
    let s : Service := { catalog := .bundled }
    let e : Expression := .alone {
      field := .text "date.event_date", operator := .text "gte",
      value := .text "0001-01-01T00:00:00+01:00" }
    let f : Envelope := { mode := .boolean, expression := some e }
    f.IsStorable s.maxDepth ∧ (∀ e ∈ f.expression, e.IsWellFormed) ∧
    ¬∃ r r', (s.compileFilters (.envelope f)).Does [] [] r ∧
      (s.compileFilters (.stored f.toValue)).Does [] [] r' ∧ EndsAlike r r' := by
  intro s e f
  have hwell : ∀ e ∈ f.expression, e.IsWellFormed := by
    rintro _ ⟨⟩
    unfold Expression.IsWellFormed
    rw [Expression.leaves_alone, List.forall_mem_singleton]
    exact ⟨⟨_, rfl⟩, ⟨_, rfl⟩, .inl rfl⟩
  have hf : f.IsStorable s.maxDepth := by
    intro e he
    refine ⟨fun c hc => (hwell e he c hc).isStorable, ?_⟩
    cases he
    decide
  refine ⟨hf, hwell, ?_⟩
  rintro ⟨r, r', hdoes, -, halike⟩
  have hresolves : s.Resolves (.envelope f) e := rfl
  have hstuck : s.catalog.validate e = .error .range := rfl
  have herror : (s.compileFilters (.envelope f)).Does [] [] (.error (.misuse .range)) :=
    hresolves.does_resolve.bind_silent (does_gate_of_error rfl hstuck).bind_error
  obtain ⟨-, rfl⟩ := hdoes.unique herror
  cases halike

end Service

end Cohort
