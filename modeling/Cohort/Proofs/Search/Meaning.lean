import Cohort.Catalog.Bundled
import Cohort.Proofs.Search.Compiling
import Cohort.Proofs.Search.Lowering
import Mathlib.Data.List.Forall2

/-!
# A filter means its tree

The value of a tree is defined on the tree: a condition without a test is
skipped, and a group has the value that the children that are left have
together, but holds if none is left.  The text of the filter, read back as a
formula, has the same value under every assignment of truth values to the tests.
-/

namespace Cohort.Search

open Sql (Formula Truth)

/-! ## The value of a tree -/

/-- The value of a group with the values of the children that have one. -/
def groupValue (op : Connective) (negated : Bool) : List Truth → Truth
  | [] => .holds
  | ts => .negateIf negated (.ofGroup op ts)

theorem groupValue_cons (op : Connective) (negated : Bool) (t : Truth) (ts : List Truth) :
    groupValue op negated (t :: ts) = .negateIf negated (.ofGroup op (t :: ts)) := rfl

mutual

/-- The value of a node, where the value of its first test is `σ k`; a condition without a test has
none. -/
def nodeValue? (cat : Catalog) (σ : Nat → Truth) (k : Nat) : Node → Option Truth
  | .condition c => if isTested cat c then some (.negateIf c.negated (σ k)) else none
  | .group op cs negated => some (groupValue op negated (nodeValues cat σ k cs))

/-- The values of the nodes that have one, whose tests are counted through. -/
def nodeValues (cat : Catalog) (σ : Nat → Truth) (k : Nat) : List Node → List Truth
  | [] => []
  | n :: ns =>
    (nodeValue? cat σ k n).toList ++ nodeValues cat σ (k + n.leaves.countP (isTested cat)) ns

end

/-- The value of an expression, where the value of test number `k` is `σ k`. -/
def value (cat : Catalog) (σ : Nat → Truth) (e : Expression) : Truth :=
  groupValue e.connective e.negated (nodeValues cat σ 0 e.children)

/-! ## The formula of a tree -/

/-- The formula of a group with the formulas of the children that have one. -/
def groupFormula (op : Connective) (negated : Bool) : List Formula → Formula
  | [] => .constant true
  | fs => .negateIf negated (.ofGroup op fs)

theorem groupFormula_cons (op : Connective) (negated : Bool) (f : Formula) (fs : List Formula) :
    groupFormula op negated (f :: fs) = .negateIf negated (.ofGroup op (f :: fs)) := rfl

mutual

def nodeFormula? (cat : Catalog) : Node → Option Formula
  | .condition c => (test? cat c).map fun t => .negateIf c.negated (.atom [t])
  | .group op cs negated => some (groupFormula op negated (nodeFormulas cat cs))

def nodeFormulas (cat : Catalog) : List Node → List Formula
  | [] => []
  | n :: ns => (nodeFormula? cat n).toList ++ nodeFormulas cat ns

end

def tests (cat : Catalog) (cs : List Condition) : List (List String) :=
  (cs.filterMap (test? cat)).map ([·])

section Values

variable {cat : Catalog}

/-- The atoms of a group are those of its children that have a formula. -/
theorem atoms_groupFormula (op : Connective) (negated : Bool) (fs : List Formula) :
    (groupFormula op negated fs).atoms = fs.flatMap Formula.atoms := by
  cases fs with
  | nil => rfl
  | cons f fs => rw [groupFormula_cons, Formula.atoms_negateIf, Formula.atoms_ofGroup]

theorem tests_append (cs ds : List Condition) :
    tests cat (cs ++ ds) = tests cat cs ++ tests cat ds := by
  simp [tests]

/-- There are as many tests as conditions that are left to the search. -/
theorem length_tests (cs : List Condition) : (tests cat cs).length = cs.countP (isTested cat) := by
  simp only [tests, List.length_map]
  exact List.length_filterMap_eq_countP

mutual

/-- The atoms of a formula are the tests of its tree, in order. -/
theorem atoms_nodeFormula? (n : Node) :
    (nodeFormula? cat n).toList.flatMap Formula.atoms = tests cat n.leaves :=
  match n with
  | .condition c => by
    rw [nodeFormula?, Node.leaves_condition]
    cases h : test? cat c with
    | none => simp [tests, h]
    | some t => simp [tests, h, Formula.atoms]
  | .group op cs negated => by
    rw [nodeFormula?, Option.toList_some, List.flatMap_singleton, atoms_groupFormula,
      atoms_nodeFormulas cs, Node.leaves_group]

theorem atoms_nodeFormulas (ns : List Node) :
    (nodeFormulas cat ns).flatMap Formula.atoms = tests cat (ns.flatMap Node.leaves) :=
  match ns with
  | [] => rfl
  | n :: ns => by
    rw [nodeFormulas, List.flatMap_append, atoms_nodeFormula? n, atoms_nodeFormulas ns,
      List.flatMap_cons, tests_append]

end

/-- The formula of a group has the value of the group. -/
theorem eval_groupFormula (σ : Nat → Truth) (op : Connective) (negated : Bool) (k : Nat)
    (fs : List Formula) :
    (groupFormula op negated fs).eval σ k = groupValue op negated (Formula.evalAll σ k fs) := by
  cases fs with
  | nil => rfl
  | cons f fs =>
    rw [groupFormula_cons, Formula.eval_negateIf, Formula.eval_ofGroup, Formula.evalAll,
      groupValue_cons]

mutual

/-- The formula of a node has the value of the node. -/
theorem eval_nodeFormula? (σ : Nat → Truth) (k : Nat) (n : Node) :
    Formula.evalAll σ k (nodeFormula? cat n).toList = (nodeValue? cat σ k n).toList :=
  match n with
  | .condition c => by
    rw [nodeFormula?, nodeValue?, isTested]
    cases test? cat c with
    | none => rfl
    | some t => simp [Formula.evalAll, Formula.eval]
  | .group op cs negated => by
    rw [nodeFormula?, nodeValue?, Option.toList_some, Option.toList_some, Formula.evalAll,
      eval_groupFormula, evalAll_nodeFormulas σ k cs]
    rfl

theorem evalAll_nodeFormulas (σ : Nat → Truth) (k : Nat) (ns : List Node) :
    Formula.evalAll σ k (nodeFormulas cat ns) = nodeValues cat σ k ns :=
  match ns with
  | [] => rfl
  | n :: ns => by
    rw [nodeFormulas, nodeValues, Formula.evalAll_append, eval_nodeFormula? σ k n,
      atoms_nodeFormula? n, length_tests, evalAll_nodeFormulas σ _ ns]

end

end Values

/-! ## The filter of a group -/

/-- Joined filters stand in parentheses with a sign between them. -/
theorem join_eq (op : Connective) (parts : List String) :
    join op parts = (sign op).intercalate (parts.map fun p => "(" ++ p ++ ")") := by
  cases op <;> rfl

/-- The sign of a connective neither opens nor closes anything. -/
theorem kept_sign (op : Connective) : Kept (sign op) := by
  refine IsPlain.kept ?_
  cases op <;> decide

theorem sign_ne_empty (op : Connective) : sign op ≠ "" := by
  cases op <;> decide

/-- Joined filters are levels with the connective between them. -/
theorem encloses_join (op : Connective) {p : String} {ps : List String} {level : List Item}
    {levels : List (List Item)} (hp : Reads p level) (hps : List.Forall₂ Reads ps levels) :
    Encloses (join op (p :: ps))
      (((level :: levels).map enclose).intersperse (.text (sign op).toList)) := by
  rw [join_eq]
  induction hps generalizing p level with
  | nil =>
    rw [List.map_singleton, String.intercalate_singleton]
    exact hp.parenthesized
  | @cons p' level' ps levels hp' _ ih =>
    have h := hp.parenthesized.append (kept_sign op) (sign_ne_empty op) (ih hp')
    simpa [String.intercalate_cons_cons] using h

theorem exists_levels {parts : List String} {fs : List Formula}
    (h : List.Forall₂ ReadsAs parts fs) :
    ∃ levels, List.Forall₂ Reads parts levels ∧ levels.map readLevel = fs := by
  induction h with
  | nil => exact ⟨[], .nil, rfl⟩
  | cons hp _ ih =>
    obtain ⟨level, hreads, rfl⟩ := hp
    obtain ⟨levels, hall, rfl⟩ := ih
    exact ⟨level :: levels, .cons hreads hall, rfl⟩

/-- The filter that matches everything is read as a constant. -/
theorem readsAs_matchAll : ReadsAs matchAll (.constant true) := by
  have hplain : IsPlain "*:*" := by decide
  have hall : Reads "*:*" [.text "*:*".toList] := .of_kept hplain.kept (by decide)
  exact ⟨_, hall.parenthesized.reads, rfl⟩

/-- The filter of a group is read as the formula of the group. -/
theorem readsAs_groupFilter (op : Connective) (negated : Bool) {parts : List String}
    {fs : List Formula} (h : List.Forall₂ ReadsAs parts fs) :
    ReadsAs (groupFilter op negated parts) (groupFormula op negated fs) := by
  obtain ⟨levels, hlevels, hfs⟩ := exists_levels h
  cases h with
  | nil => exact readsAs_matchAll
  | @cons p f ps fs hp hps =>
    cases hlevels with
    | @cons _ level _ levels hlevel hlevels =>
      have hjoin : ReadsAs (join op (p :: ps)) (.ofGroup op (f :: fs)) := by
        refine ⟨_, (encloses_join op hlevel hlevels).reads, ?_⟩
        rw [readLevel_group, hfs]
      -- a negated group writes a single part without parentheses of its own
      cases hps with
      | nil =>
        cases negated with
        | false => exact hjoin
        | true => exact hp.not
      | cons _ _ =>
        cases negated with
        | false => exact hjoin
        | true => exact hjoin.not

/-- No group has the empty text as its filter. -/
theorem groupFilter_ne_empty (op : Connective) (negated : Bool) (parts : List String) :
    groupFilter op negated parts ≠ "" := by
  have hjoin (p : String) (ps : List String) : join op (p :: ps) ≠ "" := by
    rw [join_eq]
    cases ps <;> simp [String.intercalate_cons_cons]
  unfold groupFilter
  split
  · decide
  · split
    · simp
    · exact hjoin _ _
  · split
    · simp
    · cases parts with
      | nil => contradiction
      | cons p ps => exact hjoin p ps

/-! ## The filter of a tree -/

section Nodes

variable {cat : Catalog}

mutual

/-- The filter of a node is read as its formula where tests can be read back. -/
theorem readsAs_nodeFilter? (n : Node)
    (h : ∀ c ∈ n.leaves, ∀ t, test? cat c = some t → IsTest t) :
    List.Forall₂ ReadsAs (nodeFilter? cat n).toList (nodeFormula? cat n).toList :=
  match n with
  | .condition c => by
    rw [nodeFilter?, nodeFormula?, conditionFilter?]
    cases ht : test? cat c with
    | none => exact .nil
    | some t =>
      have hreads := (h c (by simp) t ht).readsAs
      refine .cons ?_ .nil
      cases c.negated with
      | false => exact hreads
      | true => exact hreads.not
  | .group op cs negated => by
    rw [Node.leaves_group] at h
    rw [nodeFilter?, nodeFormula?]
    exact .cons (readsAs_groupFilter op negated (readsAs_nodeFilters cs h)) .nil

/-- The filters of nodes are read as their formulas. -/
theorem readsAs_nodeFilters (ns : List Node)
    (h : ∀ c ∈ ns.flatMap Node.leaves, ∀ t, test? cat c = some t → IsTest t) :
    List.Forall₂ ReadsAs (nodeFilters cat ns) (nodeFormulas cat ns) :=
  match ns with
  | [] => .nil
  | n :: ns => by
    rw [List.flatMap_cons, List.forall_mem_append] at h
    rw [nodeFilters, nodeFormulas]
    exact List.rel_append (readsAs_nodeFilter? n h.1) (readsAs_nodeFilters ns h.2)

end

/-- Where tests can be read back, the filter of an expression is read as a formula with the value
of the expression.  The atoms of the formula are the tests. -/
theorem exists_read_filter {e : Expression} {text : String} (htext : filter cat e = .ok text)
    (h : ∀ c ∈ e.leaves, ∀ t, test? cat c = some t → IsTest t) :
    ∃ f, read text = some f ∧ f.atoms = tests cat e.leaves ∧
      ∀ σ : Nat → Truth, f.eval σ 0 = value cat σ e := by
  obtain ⟨-, rfl⟩ := filter_eq_ok_iff.mp htext
  rw [Expression.leaves, Expression.toNode, Node.leaves_group] at h ⊢
  refine ⟨groupFormula e.connective e.negated (nodeFormulas cat e.children), ?_, ?_, ?_⟩
  · exact (readsAs_groupFilter _ _ (readsAs_nodeFilters e.children h)).read_eq
  · rw [atoms_groupFormula, atoms_nodeFormulas]
  · intro σ
    rw [eval_groupFormula, evalAll_nodeFormulas, value]

end Nodes

/-- Where every path is a word and every value that a test writes is safe, the filter of an
expression is a text that is read as a formula.  The atoms of the formula are the tests of the
conditions that are left to the search, in order, and the formula has the value of the expression
under every assignment.  But there is no filter at all as soon as something that is written for a
condition has too many digits. -/
theorem read_filter {cat : Catalog} (hcat : HasPaths cat) {e : Expression}
    (he : ∀ c ∈ e.leaves, ∀ v ∈ handed cat c, isSafe v = true) :
    ((∀ c ∈ e.leaves, isWritable cat c = true) →
      ∃ text, filter cat e = .ok text ∧ text ≠ "" ∧
        ∃ f, read text = some f ∧ f.atoms = tests cat e.leaves ∧
          ∀ σ : Nat → Truth, f.eval σ 0 = value cat σ e) ∧
    ∀ c ∈ e.leaves, isWritable cat c = false → filter cat e = .error .value := by
  refine ⟨fun hwritable => ?_, fun c hc => filter_of_not_isWritable hc⟩
  have htext := filter_of_writable hwritable
  refine ⟨_, htext, groupFilter_ne_empty _ _ _, exists_read_filter htext ?_⟩
  exact fun c hc t ht => isTest_of_test? hcat (he c hc) ht

/-- Values that look like parts of the language and a condition that is not searched for, read back.
-/
theorem read_filter_bundled :
    let e : Expression := {
      connective := .or
      negated := true
      children := [
        .condition { field := .text "business.company_name", operator := .text "contains",
                     value := .text "A\x60) || (B", negated := true },
        .group .and [
          .condition { field := .text "business.revenue", operator := .text "gte",
                       value := .int 1 }] true,
        .group .or [
          .condition { field := .text "intent.topics", operator := .text "matchAny",
                       value := .list [.text "x", .text "(y"] },
          .group .and [
            .condition { field := .text "intent.score", operator := .text "between",
                         value := .list [.int 1, .int 5], negated := true }] true] true] }
    HasPaths .bundled ∧ (∀ c ∈ e.leaves, ∀ v ∈ handed .bundled c, isSafe v = true) ∧
    (∀ c ∈ e.leaves, isWritable .bundled c = true) ∧
    ∃ text, filter .bundled e = .ok text ∧ text ≠ "" ∧
      ∃ f, read text = some f ∧ f.atoms = tests .bundled e.leaves ∧
        ∀ σ : Nat → Truth, f.eval σ 0 = value .bundled σ e := by
  intro e
  have hcat : HasPaths .bundled := by decide +kernel
  have he : ∀ c ∈ e.leaves, ∀ v ∈ handed .bundled c, isSafe v = true := by decide +kernel
  have hwritable : ∀ c ∈ e.leaves, isWritable .bundled c = true := by decide +kernel
  exact ⟨hcat, he, hwritable, (read_filter hcat he).1 hwritable⟩

/-- A comparison with a number that has too many digits leaves no filter, although it is written for
a word and a safe value. -/
theorem filter_of_tooLong :
    let c : Condition := { field := .text "intent.score", operator := .text "gte",
                           value := .tooLong }
    HasPaths .bundled ∧ (∀ v ∈ handed .bundled c, isSafe v = true) ∧
    filter .bundled { children := [.condition c] } = .error .value := by
  intro c
  have hcat : HasPaths .bundled := by decide +kernel
  have hfate : fate .bundled c = .tested (.text "intent.score") .gte := rfl
  have hhanded : ∀ v ∈ handed .bundled c, isSafe v = true := by
    rw [handed, hfate]
    exact List.forall_mem_singleton.mpr rfl
  have hvalue : c.value.isWritable = false := Value.isWritable_tooLong
  have hunfit : isWritable .bundled c = false := by
    rw [isWritable_of_tested hfate]
    simp [rendered, hvalue]
  refine ⟨hcat, hhanded, filter_of_not_isWritable ?_ hunfit⟩
  exact List.mem_singleton_self c

end Cohort.Search
