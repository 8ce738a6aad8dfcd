import Mathlib.Data.List.TakeWhile
import Cohort.Proofs.Search.Fate

/-!
# What a search compilation leaves

A compilation goes through the conditions of a tree once, in order, and ends at the first one for
which something cannot be written.  What it leaves is said in two parts, each of its own: the
filters of the nodes, and the conditions found dropped.
-/

namespace Cohort.Search

/-- The filter of a condition, if it has one. -/
def conditionFilter? (cat : Catalog) (c : Condition) : Option String :=
  (test? cat c).map fun t => if c.negated then "!(" ++ t ++ ")" else t

mutual

/-- The filter of a node, if it has one. -/
def nodeFilter? (cat : Catalog) : Node → Option String
  | .condition c => conditionFilter? cat c
  | .group op cs negated => some (groupFilter op negated (nodeFilters cat cs))

def nodeFilters (cat : Catalog) : List Node → List String
  | [] => []
  | n :: ns => (nodeFilter? cat n).toList ++ nodeFilters cat ns

end

/-- What is kept of a condition that is dropped. -/
def omission? (cat : Catalog) (c : Condition) : Option (Omission DropCause) := do
  let cause ← dropCause? cat c
  let warning ← (cause.message c).toOption
  return ⟨c, cause, warning⟩

/-- What is kept of a condition is the condition, the cause for dropping it and the warning about
it. -/
theorem omission?_eq_some_iff {cat : Catalog} {c : Condition} {o : Omission DropCause} :
    omission? cat c = some o ↔
      o.condition = c ∧ dropCause? cat c = some o.reason ∧ o.reason.message c = .ok o.warning := by
  obtain ⟨c', r, w⟩ := o
  unfold omission?
  simp only [Option.bind_eq_bind, Option.bind_eq_some_iff, toOption_eq_some_iff, Option.pure_def,
    Option.some.injEq, Omission.mk.injEq]
  constructor
  · rintro ⟨_, hr, _, hw, rfl, rfl, rfl⟩
    exact ⟨rfl, hr, hw⟩
  · rintro ⟨rfl, hr, hw⟩
    exact ⟨_, hr, _, hw, rfl, rfl, rfl⟩

/-- What is kept of the conditions of a list that are dropped. -/
def drops (cat : Catalog) (cs : List Condition) : List (Omission DropCause) :=
  cs.filterMap (omission? cat)

/-- The result of a compilation that starts with some conditions noted, and what it has noted at its
end. -/
def runFrom {α : Type} (noted : List (Omission DropCause)) (m : Compiling α) :
    Except Misuse α × List (Omission DropCause) := m.run.run noted

section Running

variable {cat : Catalog} {c : Condition} {noted : List (Omission DropCause)}

theorem drops_append (cs ds : List Condition) :
    drops cat (cs ++ ds) = drops cat cs ++ drops cat ds :=
  List.filterMap_append

theorem runFrom_mk {α : Type} (m : Except Misuse α) :
    runFrom noted (ExceptT.mk (pure m)) = (m, noted) := rfl

theorem runFrom_bind_of_ok {α β : Type} {m : Compiling α} {a : α}
    {noted' : List (Omission DropCause)} (f : α → Compiling β)
    (h : runFrom noted m = (.ok a, noted')) : runFrom noted (m >>= f) = runFrom noted' (f a) := by
  have hrun : m.run.run noted = (.ok a, noted') := h
  rw [runFrom, ExceptT.run_bind, StateT.run_bind, hrun]
  rfl

theorem runFrom_bind_of_error {α β : Type} {m : Compiling α} {e : Misuse}
    {noted' : List (Omission DropCause)} (f : α → Compiling β)
    (h : runFrom noted m = (.error e, noted')) : runFrom noted (m >>= f) = (.error e, noted') := by
  have hrun : m.run.run noted = (.error e, noted') := h
  rw [runFrom, ExceptT.run_bind, StateT.run_bind, hrun]
  rfl

/-- Compiling a condition leaves its filter, and what is kept of it if it is dropped. -/
theorem runFrom_condition (hc : isWritable cat c = true) :
    runFrom noted (condition cat c) =
      (.ok (conditionFilter? cat c), noted ++ drops cat [c]) := by
  have houtcome := @outcome_eq cat c
  cases hfate : fate cat c with
  | skipped =>
    rw [hfate] at houtcome
    have hkept : drops cat [c] = [] := by simp [drops, omission?, dropCause?, hfate]
    rw [condition, houtcome, conditionFilter?, test?, houtcome, hkept, List.append_nil]
    rfl
  | dropped cause =>
    rw [hfate] at houtcome
    rw [isWritable_of_dropped hfate] at hc
    obtain ⟨warning, hwarning⟩ := (isWriting_message c cause).exists_ok_iff.mpr hc
    have hkept : drops cat [c] = [⟨c, cause, warning⟩] := by
      simp [drops, omission?, dropCause?, hfate, hwarning, Except.toOption]
    rw [condition, houtcome, conditionFilter?, test?, houtcome, hkept,
      runFrom_bind_of_ok _ (runFrom_mk _)]
    dsimp only
    rw [hwarning]
    rfl
  | tested path op =>
    rw [hfate] at houtcome
    have hwrites := writesTest_of_tested hfate
    rw [hc] at hwrites
    obtain ⟨t, -, ht⟩ := hwrites
    have hkept : drops cat [c] = [] := by simp [drops, omission?, dropCause?, hfate]
    have hfilter : outcome cat c = .ok (.filter t) := by
      rw [houtcome]
      dsimp only
      rw [ht]
      rfl
    rw [condition, conditionFilter?, test?, hfilter, hkept, List.append_nil]
    rfl

/-- Where all can be written for a condition that is dropped, so can the warning about it. -/
theorem exists_omission? (hc : isWritable cat c = true) {cause : DropCause}
    (h : dropCause? cat c = some cause) :
    ∃ warning, omission? cat c = some ⟨c, cause, warning⟩ := by
  have hfate : fate cat c = .dropped cause := by
    unfold dropCause? at h
    split at h <;> cases h
    assumption
  rw [isWritable_of_dropped hfate] at hc
  obtain ⟨warning, hwarning⟩ := (isWriting_message c cause).exists_ok_iff.mpr hc
  exact ⟨warning, by simp [omission?, h, hwarning, Except.toOption]⟩

/-- The misuse of a condition for which something cannot be written ends the compilation. -/
theorem runFrom_condition_of_not_isWritable (hc : isWritable cat c = false) :
    runFrom noted (condition cat c) = (.error .value, noted) := by
  have houtcome := @outcome_eq cat c
  cases hfate : fate cat c with
  | skipped => simp [isWritable, written, hfate] at hc
  | dropped cause =>
    rw [hfate] at houtcome
    rw [isWritable_of_dropped hfate] at hc
    have hwarning : cause.message c = .error .value :=
      (isWriting_message c cause).error_iff.mpr ⟨hc, rfl⟩
    rw [condition, houtcome, runFrom_bind_of_ok _ (runFrom_mk _)]
    dsimp only
    rw [hwarning]
    rfl
  | tested path op =>
    rw [hfate] at houtcome
    have hwrites := writesTest_of_tested hfate
    rw [hc] at hwrites
    have hfails : outcome cat c = .error .value := by
      rw [houtcome]
      dsimp only
      rw [(hwrites : lower? op path c.value = .error .value)]
      rfl
    rw [condition, hfails]
    rfl

mutual

/-- Compiling a node leaves its filter, if all that is written for its conditions can be, and notes
its dropped conditions, up to the first one for which something cannot be written. -/
theorem runFrom_node (n : Node) (noted : List (Omission DropCause)) :
    runFrom noted (node cat n) =
      (if n.leaves.all (isWritable cat) then .ok (nodeFilter? cat n) else .error .value,
        noted ++ drops cat (n.leaves.takeWhile (isWritable cat))) :=
  match n with
  | .condition c => by
    rw [node, nodeFilter?, Node.leaves_condition]
    cases hc : isWritable cat c with
    | true => simp [runFrom_condition hc, hc]
    | false => simp [runFrom_condition_of_not_isWritable hc, hc, drops]
  | .group op cs negated => by
    have hcs := runFrom_nodes cs noted
    rw [node, nodeFilter?, Node.leaves_group]
    split at hcs
    case isTrue hall =>
      rw [runFrom_bind_of_ok _ hcs, if_pos hall]
      rfl
    case isFalse hall => rw [runFrom_bind_of_error _ hcs, if_neg hall]

/-- Nodes compile to the filters of those that have one, unless something for a condition cannot be
written; what is dropped up to there is kept. -/
theorem runFrom_nodes (ns : List Node) (noted : List (Omission DropCause)) :
    runFrom noted (nodes cat ns) =
      (if (ns.flatMap Node.leaves).all (isWritable cat) then .ok (nodeFilters cat ns)
        else .error .value,
        noted ++ drops cat ((ns.flatMap Node.leaves).takeWhile (isWritable cat))) :=
  match ns with
  | [] => by
    rw [nodes, nodeFilters]
    simp [drops]
    rfl
  | n :: ns => by
    have hn := runFrom_node n noted
    rw [nodes, nodeFilters, List.flatMap_cons, List.all_append]
    split at hn
    case isTrue hall =>
      have hleaves : ∀ c ∈ n.leaves, isWritable cat c = true := List.all_eq_true.mp hall
      have hns := runFrom_nodes ns (noted ++ drops cat (n.leaves.takeWhile (isWritable cat)))
      rw [runFrom_bind_of_ok _ hn, List.takeWhile_append_of_pos hleaves, hall, Bool.true_and,
        drops_append, ← List.append_assoc]
      rw [List.takeWhile_eq_self_iff.mpr hleaves] at hns ⊢
      split at hns
      case isTrue hall' =>
        rw [runFrom_bind_of_ok _ hns, if_pos hall']
        rfl
      case isFalse hall' => rw [runFrom_bind_of_error _ hns, if_neg hall']
    case isFalse hall =>
      rw [runFrom_bind_of_error _ hn, takeWhile_append_of_not_all hall, Bool.eq_false_iff.mpr hall]
      rfl

end

/-- If all that is written for the conditions of an expression can be, its filter is that of a group
with the filters of its nodes, and otherwise there is none.  What is found dropped are the dropped
conditions, up to the first one for which something cannot be written. -/
theorem compile_eq (e : Expression) :
    compile cat e =
      { filter :=
          if e.leaves.all (isWritable cat) then
            .ok (groupFilter e.connective e.negated (nodeFilters cat e.children))
          else .error .value
        dropped := drops cat (e.leaves.takeWhile (isWritable cat)) } := by
  have hrun := @runFrom_nodes cat e.children []
  have hsplit : compile cat e =
      { filter := (runFrom [] (nodes cat e.children)).1.map (groupFilter e.connective e.negated)
        dropped := (runFrom [] (nodes cat e.children)).2 } := rfl
  rw [hsplit, hrun, Expression.leaves, Expression.toNode, Node.leaves_group, List.nil_append]
  split <;> rfl

/-- Where all that is written for the conditions can be, there is a filter. -/
theorem filter_of_writable {e : Expression} (he : ∀ c ∈ e.leaves, isWritable cat c = true) :
    filter cat e = .ok (groupFilter e.connective e.negated (nodeFilters cat e.children)) := by
  rw [filter, compile_eq]
  exact if_pos (List.all_eq_true.mpr he)

/-- One condition for which something cannot be written leaves no filter. -/
theorem filter_of_not_isWritable {e : Expression} {c : Condition} (hc : c ∈ e.leaves)
    (hunfit : isWritable cat c = false) : filter cat e = .error .value := by
  rw [filter, compile_eq]
  refine if_neg fun hall => ?_
  cases hunfit.symm.trans (List.all_eq_true.mp hall c hc)

/-- There is a filter just if all that is written for the conditions can be. -/
theorem filter_eq_ok_iff {e : Expression} {text : String} :
    filter cat e = .ok text ↔ (∀ c ∈ e.leaves, isWritable cat c = true) ∧
      groupFilter e.connective e.negated (nodeFilters cat e.children) = text := by
  rw [filter, compile_eq, ← List.all_eq_true]
  dsimp only
  split
  case isTrue hall => rw [Except.ok.injEq, and_iff_right hall]
  case isFalse hall => simp [hall]

end Running

end Cohort.Search
