import Cohort.Proofs.Search.Meaning

/-!
# Filters without tests

Where no condition of an expression is left to the search, its filter is made of
the sign for everything alone.  A negated group that has only conditions still
matches everything, but one that has a group among its children negates the
filter of that group, and then nothing is matched.
-/

namespace Cohort

namespace Node

mutual

/-- Whether no negated group has a group among its children. -/
def sparesGroups : Node → Bool
  | condition _ => true
  | group _ cs negated => !(negated && cs.any isGroup) && allSpareGroups cs

def allSpareGroups : List Node → Bool
  | [] => true
  | n :: ns => n.sparesGroups && allSpareGroups ns

end

end Node

namespace Search

open Sql (Formula Truth)

/-- Groups that hold make a group that fails only if it is negated and there is one of them. -/
theorem groupValue_replicate_holds (op : Connective) (negated : Bool) (cs : List Node) :
    groupValue op negated (.replicate (cs.countP Node.isGroup) .holds) =
      if negated && cs.any Node.isGroup then .fails else .holds := by
  cases hm : cs.countP Node.isGroup with
  | zero =>
    have hany : cs.any Node.isGroup = false := by
      rw [List.countP_eq_zero] at hm
      simpa using hm
    simp [groupValue, hany]
  | succ m =>
    have hany : cs.any Node.isGroup = true := by
      have hpos : 0 < cs.countP Node.isGroup := by omega
      rwa [List.countP_pos_iff, ← List.any_eq_true] at hpos
    have hgroup := Truth.ofGroup_replicate_holds op (m + 1)
    rw [List.replicate_succ] at hgroup ⊢
    rw [groupValue_cons, hgroup, hany, Bool.and_true]
    cases negated <;> rfl

section Values

variable {cat : Catalog} {σ : Nat → Truth}

mutual

/-- A node without tests has a value only if it is a group, and then it holds. -/
theorem nodeValue?_of_untested (k : Nat) (n : Node) (h : ∀ c ∈ n.leaves, test? cat c = none)
    (hspares : n.sparesGroups = true) :
    nodeValue? cat σ k n = if n.isGroup then some .holds else none :=
  match n with
  | .condition c => by
    have hc : test? cat c = none := h c (by simp)
    simp [nodeValue?, isTested, hc, Node.isGroup]
  | .group op cs negated => by
    rw [Node.leaves_group] at h
    simp only [Node.sparesGroups, Bool.and_eq_true, Bool.not_eq_true'] at hspares
    obtain ⟨hchildren, hall⟩ := hspares
    rw [nodeValue?, nodeValues_of_untested k cs h hall, groupValue_replicate_holds, hchildren]
    rfl

/-- Nodes without a test hold if they are groups, and have no value otherwise. -/
theorem nodeValues_of_untested (k : Nat) (ns : List Node)
    (h : ∀ c ∈ ns.flatMap Node.leaves, test? cat c = none)
    (hspares : Node.allSpareGroups ns = true) :
    nodeValues cat σ k ns = .replicate (ns.countP Node.isGroup) .holds :=
  match ns with
  | [] => rfl
  | n :: ns => by
    rw [List.flatMap_cons, List.forall_mem_append] at h
    rw [Node.allSpareGroups, Bool.and_eq_true] at hspares
    rw [nodeValues, nodeValue?_of_untested k n h.1 hspares.1,
      nodeValues_of_untested _ ns h.2 hspares.2, List.countP_cons]
    cases n.isGroup <;> simp [List.replicate_succ]

end

end Values

/-- An expression without tests whose children spare their groups matches everything, unless it is
negated and has a group among its children; then it matches nothing.  It has no filter if a warning
about one of its conditions cannot be written. -/
theorem read_filter_of_untested {cat : Catalog} {e : Expression}
    (h : ∀ c ∈ e.leaves, isUnsearched cat c = true)
    (hspares : Node.allSpareGroups e.children = true) :
    ((∀ c ∈ e.leaves, isWritable cat c = true) →
      ∃ text, filter cat e = .ok text ∧ ∃ f, read text = some f ∧ f.atoms = [] ∧
        ∀ σ : Nat → Truth, f.eval σ 0 =
          if e.negated && e.children.any Node.isGroup then .fails else .holds) ∧
    ∀ c ∈ e.leaves, isWritable cat c = false → filter cat e = .error .value := by
  refine ⟨fun hwritable => ?_, fun c hc => filter_of_not_isWritable hc⟩
  have hnone : ∀ c ∈ e.leaves, test? cat c = none := fun c hc => test?_of_isUnsearched (h c hc)
  have htext := filter_of_writable hwritable
  obtain ⟨f, hread, hatoms, heval⟩ := exists_read_filter htext fun c hc t ht => by
    cases (hnone c hc).symm.trans ht
  refine ⟨_, htext, f, hread, ?_, ?_⟩
  · rw [hatoms, tests, List.map_eq_nil_iff, List.filterMap_eq_nil_iff]
    exact hnone
  · intro σ
    rw [Expression.leaves, Expression.toNode, Node.leaves_group] at hnone
    rw [heval, value, nodeValues_of_untested 0 e.children hnone hspares, groupValue_replicate_holds]

/-- An empty group and a condition that is not searched for, under negations. -/
theorem read_filter_of_untested_nested :
    let e : Expression := {
      children := [
        .group .and [] true,
        .group .or [
          .condition { field := .text "business.revenue", operator := .text "gte",
                       value := .int 1, negated := true }] true] }
    (∀ c ∈ e.leaves, isUnsearched .bundled c = true) ∧ Node.allSpareGroups e.children = true ∧
    (∀ c ∈ e.leaves, isWritable .bundled c = true) ∧
    ∃ text, filter .bundled e = .ok text ∧ ∃ f, read text = some f ∧ f.atoms = [] ∧
      ∀ σ : Nat → Truth, f.eval σ 0 = .holds := by
  intro e
  have h : ∀ c ∈ e.leaves, isUnsearched .bundled c = true := by decide +kernel
  have hspares : Node.allSpareGroups e.children = true := by decide +kernel
  have hwritable : ∀ c ∈ e.leaves, isWritable .bundled c = true := by decide +kernel
  exact ⟨h, hspares, hwritable, (read_filter_of_untested h hspares).1 hwritable⟩

/-- A negated group is not read as everything if its only child is a group without tests. -/
theorem exists_untested_fails :
    let e : Expression := {
      negated := true
      children := [
        .group .and [
          .condition { field := .text "business.revenue", operator := .text "gte",
                       value := .int 1 }] false] }
    (∀ c ∈ e.leaves, isUnsearched .bundled c = true) ∧ filter .bundled e = .ok "!((*:*))" ∧
    read "!((*:*))" = some (.not (.constant true)) ∧
    ∀ σ : Nat → Truth, (Formula.not (.constant true)).eval σ 0 = .fails := by
  refine ⟨?_, ?_, ?_, ?_⟩
  · decide +kernel
  · rfl
  · decide +kernel
  · intro σ
    rfl

end Search

end Cohort
