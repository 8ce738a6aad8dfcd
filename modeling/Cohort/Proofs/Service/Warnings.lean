import Cohort.Proofs.Search.Unsearched
import Cohort.Proofs.Sql.Alignment
import Cohort.Service.Basic
import Mathlib.Data.List.TakeWhile

/-!
# Warnings about ignored conditions

A condition that cannot be compiled does not fail the compilation: TRUE stands in its place in a
clause, and a search filter goes without it.  What is left of it is a warning.  So the warnings have
to be told from what the conditions come to, and this is said without the compiler's own account of
what it has degraded or dropped: a condition is replaced by TRUE if it comes to TRUE alone, negated
or not, and it is dropped if no group shows it.

TRUE by itself does not tell: a membership test of the empty list and an empty group come to TRUE as
well.  Their negations do not.
-/

namespace Cohort

open Cohort.Action

/-! ## Records about conditions -/

namespace Log

/-- Some records tell of the conditions of a list to which something happens: one record of each, in
order, and none of the others. -/
inductive TellOf (happens : Condition → Prop) (tells : Condition → Record → Prop) :
    List Condition → List Record → Prop
  | nil : TellOf happens tells [] []
  | told {c : Condition} {r : Record} {cs : List Condition} {rs : List Record}
      (happened : happens c) (record : tells c r) (rest : TellOf happens tells cs rs) :
      TellOf happens tells (c :: cs) (r :: rs)
  | silent {c : Condition} {cs : List Condition} {rs : List Record} (passed : ¬ happens c)
      (rest : TellOf happens tells cs rs) : TellOf happens tells (c :: cs) rs

/-- Records that each condition has or has not, in the order of the conditions, tell of what happens
to them. -/
theorem TellOf.of_filterMap {happens : Condition → Prop} {tells : Condition → Record → Prop}
    {record? : Condition → Option Record} {cs : List Condition}
    (hsome : ∀ c ∈ cs, ∀ r, record? c = some r → happens c ∧ tells c r)
    (hnone : ∀ c ∈ cs, record? c = none → ¬ happens c) :
    TellOf happens tells cs (cs.filterMap record?) := by
  induction cs with
  | nil => exact .nil
  | cons c cs ih =>
    rw [List.forall_mem_cons] at hsome hnone
    have hrest := ih hsome.2 hnone.2
    cases hc : record? c with
    | none =>
      rw [List.filterMap_cons_none hc]
      exact .silent (hnone.1 hc) hrest
    | some r =>
      rw [List.filterMap_cons_some hc]
      obtain ⟨hhappens, htells⟩ := hsome.1 r hc
      exact .told hhappens htells hrest

end Log

/-! ## Conditions in a clause -/

namespace Sql

variable {d : Dialect} {cat : Catalog} {c : Condition} {e : Expression}

/-- Alone, a condition comes to TRUE, negated or not. -/
def IsReplaced (d : Dialect) (cat : Catalog) (c : Condition) : Prop :=
  ∀ negated, (compile d cat (.alone { c with negated })).query = .ok ⟨"(TRUE)", []⟩

/-- A record is the warning that a condition has no clause, with the reason. -/
def Warns (cat : Catalog) (c : Condition) (r : Log.Record) : Prop :=
  ∃ reason warning, degradation? cat c = some reason ∧ reason.message c = .ok warning ∧
    r = ⟨.warning, Log.relationalLogger, warning⟩

/-- A condition that meets a misuse meets the same one alone. -/
theorem query_compile_alone_of_obstacle {m : Misuse} (hc : obstacle? d cat c = some m) :
    (compile d cat (.alone c)).query = .error m := by
  rw [compile_eq, hindrance?_alone, hc]

theorem obstacle?_eq_none_iff : obstacle? d cat c = none ↔ isWritable d cat c = true := by
  rw [isWritable, Option.isNone_iff_eq_none]

/-- The conditions that are replaced are those without a clause that no misuse stops. -/
theorem isReplaced_iff :
    IsReplaced d cat c ↔
      isWritable d cat c = true ∧ ∃ reason, degradation? cat c = some reason := by
  constructor
  · intro h
    have hnegated := h true
    have hsame : obstacle? d cat { c with negated := true } = obstacle? d cat c := rfl
    cases hc : obstacle? d cat c with
    | some m =>
      rw [query_compile_alone_of_obstacle (hsame.trans hc)] at hnegated
      cases hnegated
    | none =>
      rw [query_compile_alone (hsame.trans hc)] at hnegated
      refine ⟨obstacle?_eq_none_iff.mp hc, ?_⟩
      rcases Clause.ofCondition_cases cat { c with negated := true } with
        ⟨reason, hd, -⟩ | ⟨f, op, -, -, -, -, -, hclause⟩
      · exact ⟨reason, hd⟩
      · -- the clause of a negated condition does not begin as TRUE does
        rw [hclause, Clause.render_negateIf] at hnegated
        have htext := congrArg (fun r => r.toOption.map fun q : Query => q.text.toList) hnegated
        simp [negateIf, Except.toOption] at htext
  · rintro ⟨hw, reason, hd⟩ negated
    exact compile_alone_of_degraded (c := { c with negated }) (obstacle?_eq_none_iff.mpr hw) hd

/-- A membership test that excludes nothing comes to TRUE, and is not replaced. -/
theorem compile_excludes_nothing {f : Field} (hf : cat.find? c.field = some f) {column : Value}
    (hcolumn : d.column f.column = .ok column) (hop : c.operator = .text "nin")
    (hv : c.value.sequence? = some []) :
    (compile d cat (.alone { c with negated := false })).query = .ok ⟨"(TRUE)", []⟩ ∧
      ¬ IsReplaced d cat c := by
  have hofValue : Operator.ofValue? c.operator = some .notIn := by
    rw [hop]
    exact Operator.ofId?_id .notIn
  have htarget : target cat { c with negated := false } = .ok (.notIn, f.column) := by
    rw [target, hf, hofValue]
    rfl
  constructor
  · -- the list is empty, so that nothing is written
    have hobstacle : obstacle? d cat { c with negated := false } = none := by
      rw [obstacle?_of_column htarget hcolumn]
      simp [fits, writtenFor, emptyTest?, pattern?, hv]
    have hclause : Clause.ofCondition cat 1 { c with negated := false } = .always := by
      rw [Clause.ofCondition, htarget]
      simp [fits, Clause.ofTest, Clause.member, hv, Clause.negateIf]
    rw [query_compile_alone hobstacle, hclause]
    rfl
  · rw [isReplaced_iff]
    rintro ⟨-, reason, hd⟩
    rw [degradation?, hf, hofValue] at hd
    cases hd

/-- What degrades in a compilation are the degraded conditions up to the first misuse. -/
theorem degraded_compile (d : Dialect) (cat : Catalog) (e : Expression) :
    (compile d cat e).degraded = degradations cat (e.leaves.takeWhile (isWritable d cat)) := by
  rw [compile_eq]

/-- What a compilation finds degraded is told of the conditions before the first with a misuse. -/
theorem tellOf_degraded (d : Dialect) (cat : Catalog) (e : Expression) :
    Log.TellOf (IsReplaced d cat) (Warns cat) (e.leaves.takeWhile (isWritable d cat))
      ((compile d cat e).degraded.map fun o => ⟨.warning, Log.relationalLogger, o.warning⟩) := by
  rw [degraded_compile, degradations, List.map_filterMap]
  refine .of_filterMap ?_ ?_
  · intro c hc r hr
    have hw : isWritable d cat c = true := List.mem_takeWhile_imp hc
    obtain ⟨o, ho, rfl⟩ := Option.map_eq_some_iff.mp hr
    obtain ⟨-, hd, hwarning⟩ := omission?_eq_some_iff.mp ho
    exact ⟨isReplaced_iff.mpr ⟨hw, o.reason, hd⟩, o.reason, o.warning, hd, hwarning, rfl⟩
  · intro c _ hr happens
    obtain ⟨hw, reason, hd⟩ := isReplaced_iff.mp happens
    obtain ⟨warning, ho⟩ := exists_omission? hw hd
    rw [ho] at hr
    cases hr

/-- A compilation goes through all conditions and has a query, or it stops at the first condition
that has none alone, with the same misuse. -/
theorem compile_stops (d : Dialect) (cat : Catalog) (e : Expression) :
    (e.leaves.dropWhile (isWritable d cat) = [] ∧ ∃ q, (compile d cat e).query = .ok q) ∨
      ∃ c behind m, e.leaves.dropWhile (isWritable d cat) = c :: behind ∧
        (compile d cat (.alone c)).query = .error m ∧ (compile d cat e).query = .error m := by
  cases hrest : e.leaves.dropWhile (isWritable d cat) with
  | nil =>
    have hhindrance : hindrance? d cat e = none := by
      rw [hindrance?, ← all_isWritable_iff, List.all_eq_true]
      exact List.dropWhile_eq_nil_iff.mp hrest
    refine .inl ⟨rfl, ?_⟩
    rw [compile_eq, hhindrance]
    exact ⟨_, rfl⟩
  | cons c behind =>
    have hc : isWritable d cat c = false := by
      have hhead := List.head?_dropWhile_not (isWritable d cat) e.leaves
      rw [hrest] at hhead
      simpa using hhead
    obtain ⟨m, hm⟩ : ∃ m, obstacle? d cat c = some m := by
      rwa [isWritable, Option.isNone_eq_false_iff, Option.isSome_iff_exists] at hc
    have hhindrance : hindrance? d cat e = some m := by
      have hbefore : (e.leaves.takeWhile (isWritable d cat)).findSome? (obstacle? d cat) = none :=
        all_isWritable_iff.mp (List.all_eq_true.mpr fun _ => List.mem_takeWhile_imp)
      have hsplit : e.leaves = e.leaves.takeWhile (isWritable d cat) ++ c :: behind := by
        rw [← hrest, List.takeWhile_append_dropWhile]
      rw [hindrance?, hsplit, List.findSome?_append, hbefore, List.findSome?_cons, hm,
        Option.none_or]
    refine .inr ⟨c, behind, m, rfl, query_compile_alone_of_obstacle hm, ?_⟩
    rw [compile_eq, hhindrance]

/-- The empty group stands in the place of a condition that is replaced, and any other condition
stands for itself. -/
def Blanks (d : Dialect) (cat : Catalog) (f : Condition → Node) (c : Condition) : Prop :=
  IsReplaced d cat c ∧ f c = .group .and [] false ∨ ¬ IsReplaced d cat c ∧ f c = .condition c

/-- What is put in the place of a condition is the condition, or has no conditions at all. -/
theorem Blanks.mem_leaves {f : Condition → Node} {c c' : Condition} (h : Blanks d cat f c)
    (hc' : c' ∈ (f c).leaves) : c' = c ∧ ¬ IsReplaced d cat c := by
  rcases h with ⟨-, hf⟩ | ⟨hkept, hf⟩
  · rw [hf] at hc'
    simp at hc'
  · rw [hf] at hc'
    exact ⟨by simpa using hc', hkept⟩

/-- For a condition that can be written, what is put in its place is what its clause tells. -/
theorem Blanks.eq_blank {f : Condition → Node} (h : Blanks d cat f c)
    (hw : isWritable d cat c = true) : f c = blank cat c := by
  unfold blank isLowered
  rcases h with ⟨hreplaced, hf⟩ | ⟨hkept, hf⟩
  · obtain ⟨-, reason, hd⟩ := isReplaced_iff.mp hreplaced
    rw [hd, hf]
    rfl
  · cases hd : degradation? cat c with
    | none => exact hf
    | some reason => exact absurd (isReplaced_iff.mpr ⟨hw, reason, hd⟩) hkept

/-- The conditions that are not replaced still have their misuses, if they have any. -/
theorem hindrance?_graft {f : Condition → Node} (hf : ∀ c ∈ e.leaves, Blanks d cat f c) :
    hindrance? d cat (e.graft f) = hindrance? d cat e := by
  rw [hindrance?, hindrance?, Expression.leaves_graft]
  generalize e.leaves = cs at hf
  induction cs with
  | nil => rfl
  | cons c cs ih =>
    obtain ⟨hc, hcs⟩ := List.forall_mem_cons.mp hf
    rw [List.flatMap_cons, List.findSome?_append, ih hcs, List.findSome?_cons]
    rcases hc with ⟨hreplaced, hleaf⟩ | ⟨-, hleaf⟩
    · rw [hleaf, obstacle?_eq_none_iff.mpr (isReplaced_iff.mp hreplaced).1]
      rfl
    · rw [hleaf, Node.leaves_condition, List.findSome?_singleton]
      cases obstacle? d cat c <;> rfl

/-- Empty groups in the places of the conditions that are replaced lead to the same query, and then
nothing is found degraded. -/
theorem compile_graft {f : Condition → Node} (hf : ∀ c ∈ e.leaves, Blanks d cat f c) :
    (compile d cat (e.graft f)).query = (compile d cat e).query ∧
      (compile d cat (e.graft f)).degraded = [] := by
  constructor
  · cases h : hindrance? d cat e with
    | none =>
      have hblank : e.graft f = e.graft (blank cat) := Expression.graft_congr fun c hc =>
        (hf c hc).eq_blank (obstacle?_eq_none_iff.mp (obstacle?_of_hindrance? h c hc))
      rw [hblank, query_compile_graft_blank h]
    | some m => rw [compile_eq, compile_eq, hindrance?_graft hf, h]
  · rw [degraded_compile, degradations, List.filterMap_eq_nil_iff]
    intro c hc
    have hw : isWritable d cat c = true := List.mem_takeWhile_imp hc
    have hleaf := List.takeWhile_subset _ hc
    rw [Expression.leaves_graft, List.mem_flatMap] at hleaf
    obtain ⟨c', hc', hleaf⟩ := hleaf
    obtain ⟨rfl, hkept⟩ := (hf c' hc').mem_leaves hleaf
    cases hd : degradation? cat c with
    | none => rw [omission?, hd]; rfl
    | some reason => exact absurd (isReplaced_iff.mpr ⟨hw, reason, hd⟩) hkept

end Sql

/-! ## Conditions in a search filter -/

namespace Search

variable {cat : Catalog} {c : Condition}

/-- No group shows a condition among its children. -/
def IsDropped (cat : Catalog) (c : Condition) : Prop :=
  ∀ op cs negated, filter cat { connective := op, children := .condition c :: cs, negated } =
    filter cat { connective := op, children := cs, negated }

/-- The field of a condition is known and not indexed. -/
def IsUnindexed (cat : Catalog) (c : Condition) : Prop :=
  ∃ f, cat.find? c.field = some f ∧ f.searchPath.truthy = false

/-- A record is the warning that a condition is dropped, with the reason. -/
def Warns (cat : Catalog) (c : Condition) (r : Log.Record) : Prop :=
  ∃ cause warning, dropCause? cat c = some cause ∧ cause.message c = .ok warning ∧
    r = ⟨.warning, Log.searchLogger, warning⟩

/-- The conditions that are dropped are those without a test that no misuse stops. -/
theorem isDropped_iff :
    IsDropped cat c ↔ isWritable cat c = true ∧ isUnsearched cat c = true := by
  constructor
  · intro h
    -- beside another part, the text of a filter has some length of its own
    have hbeside := h .and [.group .and [] false] false
    have hrest : filter cat { connective := .and, children := [.group .and [] false] } =
        .ok (groupFilter .and false (nodeFilters cat [.group .and [] false])) :=
      filter_of_writable nofun
    rw [hrest, filter_eq_ok_iff] at hbeside
    obtain ⟨hwritable, htext⟩ := hbeside
    have hc : isWritable cat c = true :=
      hwritable c (by simp [Expression.leaves, Expression.toNode])
    refine ⟨hc, Bool.of_not_eq_false fun hsearched => ?_⟩
    obtain ⟨t, -, ht⟩ := exists_test? hsearched hc
    have hlength := congrArg String.length htext
    simp [nodeFilters, nodeFilter?, conditionFilter?, ht, groupFilter, join] at hlength
  · rintro ⟨hwritable, hunsearched⟩ op cs negated
    have hnone : nodeFilter? cat (.condition c) = none := by
      rw [nodeFilter?, conditionFilter?, test?_of_isUnsearched hunsearched, Option.map_none]
    rw [filter, filter, compile_eq, compile_eq, nodeFilters, hnone]
    simp [Expression.leaves, Expression.toNode, hwritable]

/-- A condition is dropped for a reason that can be told if and only if it is dropped and its field
is not known to be left to the other side. -/
theorem exists_cause_iff :
    (isWritable cat c = true ∧ ∃ cause, dropCause? cat c = some cause) ↔
      IsDropped cat c ∧ ¬ IsUnindexed cat c := by
  rw [isDropped_iff, and_assoc]
  refine and_congr_right fun _ => ?_
  unfold dropCause? IsUnindexed isUnsearched fate
  cases cat.find? c.field with
  | none => simp
  | some f =>
    cases hpath : f.searchPath.truthy with
    | false => simp [hpath]
    | true =>
      cases Operator.ofValue? c.operator with
      | none => simp [hpath]
      | some op => cases hfits : fits op c.value <;> simp [hpath, hfits]

/-- What a compilation drops are the dropped conditions up to the first one for which something
cannot be written. -/
theorem dropped_compile (cat : Catalog) (e : Expression) :
    (compile cat e).dropped = drops cat (e.leaves.takeWhile (isWritable cat)) := by
  rw [compile_eq]

/-- What a compilation finds dropped is told of the conditions before the first with a misuse. -/
theorem tellOf_dropped (cat : Catalog) (e : Expression) :
    Log.TellOf (fun c => IsDropped cat c ∧ ¬ IsUnindexed cat c) (Warns cat)
      (e.leaves.takeWhile (isWritable cat))
      ((compile cat e).dropped.map fun o => ⟨.warning, Log.searchLogger, o.warning⟩) := by
  rw [dropped_compile, drops, List.map_filterMap]
  refine .of_filterMap ?_ ?_
  · intro c hc r hr
    have hw : isWritable cat c = true := List.mem_takeWhile_imp hc
    obtain ⟨o, ho, rfl⟩ := Option.map_eq_some_iff.mp hr
    obtain ⟨-, hcause, hwarning⟩ := omission?_eq_some_iff.mp ho
    exact ⟨exists_cause_iff.mp ⟨hw, o.reason, hcause⟩, o.reason, o.warning, hcause, hwarning, rfl⟩
  · intro c hc hr happens
    obtain ⟨hw, cause, hcause⟩ := exists_cause_iff.mpr happens
    obtain ⟨warning, ho⟩ := exists_omission? hw hcause
    rw [ho] at hr
    cases hr

/-- A compilation goes through all conditions and has a filter, or it stops at the first condition
that has none alone. -/
theorem filter_stops (cat : Catalog) (e : Expression) :
    (e.leaves.dropWhile (isWritable cat) = [] ∧ ∃ text, filter cat e = .ok text) ∨
      ∃ c behind, e.leaves.dropWhile (isWritable cat) = c :: behind ∧
        filter cat (.alone c) = .error .value ∧ filter cat e = .error .value := by
  cases hrest : e.leaves.dropWhile (isWritable cat) with
  | nil => exact .inl ⟨rfl, _, filter_of_writable (List.dropWhile_eq_nil_iff.mp hrest)⟩
  | cons c behind =>
    have hc : isWritable cat c = false := by
      have hhead := List.head?_dropWhile_not (isWritable cat) e.leaves
      rw [hrest] at hhead
      simpa using hhead
    have hmem : c ∈ e.leaves := (List.dropWhile_sublist _).subset (hrest ▸ List.mem_cons_self)
    refine .inr ⟨c, behind, rfl, filter_of_not_isWritable ?_ hc, filter_of_not_isWritable hmem hc⟩
    rw [Expression.leaves_alone]
    exact List.mem_singleton_self c

end Search

/-! ## What is logged -/

namespace Service

/-- Warnings are logged before what is done next. -/
theorem run_warn {α : Type} (logger : String) (warnings : List String) (a : Action α)
    (t : Trace) :
    (logAll .warning logger warnings >>= fun _ => a).run.run t =
      a.run.run { t with records := t.records ++ warnings.map (⟨.warning, logger, ·⟩) } := by
  rw [ExceptT.run_bind, StateT.run_bind]
  rfl

/-- Compiling a clause logs the warnings about the degraded conditions, also if it ends in a misuse.
-/
theorem run_clause (s : Service) (d : Sql.Dialect) (e : Expression) (t : Trace) :
    (s.clause d e).run.run t =
      ((Sql.compile d s.catalog e).query.mapError .misuse,
        { t with records := t.records ++ (Sql.compile d s.catalog e).degraded.map fun o =>
          ⟨.warning, Log.relationalLogger, o.warning⟩ }) := by
  refine (run_warn _ _ _ t).trans ?_
  rw [List.map_map]
  cases (Sql.compile d s.catalog e).query <;> rfl

/-- Compiling a search filter logs the warnings about the dropped conditions, also if there is no
filter. -/
theorem run_searchFilter (s : Service) (e : Expression) (t : Trace) :
    (s.searchFilter e).run.run t =
      ((Search.filter s.catalog e).mapError .misuse,
        { t with records := t.records ++ (Search.compile s.catalog e).dropped.map fun o =>
          ⟨.warning, Log.searchLogger, o.warning⟩ }) := by
  refine (run_warn _ _ _ t).trans ?_
  rw [List.map_map, Search.filter]
  cases (Search.compile s.catalog e).filter <;> rfl

/-- No condition is ignored silently.  The warnings of a clause tell of the conditions that are
replaced, one by one in their order, up to the first that has no clause at all, if there is one.
Empty groups in their places lead to the same query without a warning.  The warnings of a search
filter tell of the conditions that are dropped although their fields are not known to be left to the
other side, up to the first that has no filter at all.  A membership test that excludes nothing
comes to TRUE and is not replaced. -/
theorem warnings_tell_of_ignored (s : Service) (e : Expression) :
    (∀ d t, ∃ reached rest rs, e.conditions.map (·.2) = reached ++ rest ∧
      (s.clause d e).run.run t =
        ((Sql.compile d s.catalog e).query.mapError .misuse,
          { t with records := t.records ++ rs }) ∧
      Log.TellOf (Sql.IsReplaced d s.catalog) (Sql.Warns s.catalog) reached rs ∧
      (rest = [] ∧ (∃ q, (Sql.compile d s.catalog e).query = .ok q) ∨
        ∃ c behind m, rest = c :: behind ∧
          (Sql.compile d s.catalog (.alone c)).query = .error m ∧
          (Sql.compile d s.catalog e).query = .error m)) ∧
    (∀ d f, (∀ c ∈ e.conditions.map (·.2), Sql.Blanks d s.catalog f c) → ∀ t,
      (s.clause d (e.graft f)).run.run t =
        ((Sql.compile d s.catalog e).query.mapError .misuse, t)) ∧
    (∀ t, ∃ reached rest rs, e.conditions.map (·.2) = reached ++ rest ∧
      (s.searchFilter e).run.run t =
        ((Search.filter s.catalog e).mapError .misuse, { t with records := t.records ++ rs }) ∧
      Log.TellOf (fun c => Search.IsDropped s.catalog c ∧ ¬ Search.IsUnindexed s.catalog c)
        (Search.Warns s.catalog) reached rs ∧
      (rest = [] ∧ (∃ text, Search.filter s.catalog e = .ok text) ∨
        ∃ c behind, rest = c :: behind ∧
          Search.filter s.catalog (.alone c) = .error .value ∧
          Search.filter s.catalog e = .error .value)) ∧
    (∀ d c f column, s.catalog.find? c.field = some f → d.column f.column = .ok column →
      c.operator = .text "nin" → c.value.sequence? = some [] →
      (Sql.compile d s.catalog (.alone { c with negated := false })).query = .ok ⟨"(TRUE)", []⟩ ∧
        ¬ Sql.IsReplaced d s.catalog c) := by
  have hleaves : e.conditions.map (·.2) = e.leaves := rfl
  rw [hleaves]
  refine ⟨?_, ?_, ?_, ?_⟩
  · intro d t
    exact ⟨_, _, _, List.takeWhile_append_dropWhile.symm, s.run_clause d e t,
      Sql.tellOf_degraded d s.catalog e, Sql.compile_stops d s.catalog e⟩
  · intro d f hf t
    obtain ⟨hquery, hdegraded⟩ := Sql.compile_graft hf
    rw [run_clause, hquery, hdegraded, List.map_nil, List.append_nil]
  · intro t
    exact ⟨_, _, _, List.takeWhile_append_dropWhile.symm, s.run_searchFilter e t,
      Search.tellOf_dropped s.catalog e, Search.filter_stops s.catalog e⟩
  · intro d c f column hf hcolumn hop hv
    exact Sql.compile_excludes_nothing hf hcolumn hop hv

/-- An unknown field, which is told of, and a membership test that excludes nothing, which is not.
-/
theorem warnings_tell_of_ignored_nested :
    let s : Service := { catalog := .bundled }
    let unknown : Condition := { field := .text "business.shoe_size", operator := .text "eq",
                                 negated := true }
    let excluding : Condition := { field := .text "intent.topics", operator := .text "nin",
                                   value := .list [] }
    let e : Expression := {
      connective := .or
      children := [.condition unknown,
        .group .and [.condition excluding, .group .or [] true] true] }
    ∃ r, Sql.Warns s.catalog unknown r ∧
      (s.clause .preview e).run.run {} =
        (.ok ⟨"(TRUE) OR (NOT ((TRUE) AND (NOT (TRUE))))", []⟩, { records := [r] }) := by
  intro s unknown excluding e
  obtain ⟨hclause, -, -, hexcluding⟩ := warnings_tell_of_ignored s e
  have hquery : (Sql.compile .preview s.catalog e).query =
      .ok ⟨"(TRUE) OR (NOT ((TRUE) AND (NOT (TRUE))))", []⟩ := rfl
  have hunknown : Sql.IsReplaced .preview s.catalog unknown :=
    Sql.isReplaced_iff.mpr ⟨rfl, .unknownField, rfl⟩
  have hkept : ¬ Sql.IsReplaced .preview s.catalog excluding :=
    (hexcluding .preview excluding _ _ rfl rfl rfl rfl).2
  obtain ⟨reached, rest, rs, hsplit, hrun, htell, hrest⟩ := hclause .preview {}
  rw [hquery] at hrun hrest
  rcases hrest with ⟨rfl, -⟩ | ⟨_, _, _, -, -, herror⟩
  case inr => cases herror
  rw [List.append_nil] at hsplit
  obtain rfl : [unknown, excluding] = reached := hsplit
  cases htell with
  | silent passed => exact absurd hunknown passed
  | told _ record htell =>
    cases htell with
    | told happened => exact absurd happened hkept
    | silent _ htell =>
      cases htell
      exact ⟨_, record, hrun⟩

end Service

end Cohort
