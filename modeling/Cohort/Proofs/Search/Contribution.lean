import Cohort.Proofs.Expression.Matching
import Cohort.Proofs.Search.Compiling

/-!
# What conditions contribute to a search filter

The filter of a condition occurs in the filter of every group above it: groups
put parentheses, connectives and negations around the filters of their children
and drop none of them.
-/

namespace Cohort.Search

/-! ## Occurrences -/

/-- A text occurs in another one. -/
def Occurs (t s : String) : Prop := ∃ a b, s = a ++ t ++ b

namespace Occurs

variable {r s t : String}

theorem refl (t : String) : Occurs t t := ⟨"", "", by simp⟩

theorem within (h : Occurs t s) (a b : String) : Occurs t (a ++ s ++ b) := by
  obtain ⟨a', b', rfl⟩ := h
  exact ⟨a ++ a', b' ++ b, by simp only [String.append_assoc]⟩

theorem trans (h : Occurs r s) (h' : Occurs s t) : Occurs r t := by
  obtain ⟨a, b, rfl⟩ := h'
  exact h.within a b

end Occurs

/-- A filter occurs in what a group makes of it and others. -/
theorem occurs_intercalate {p : String} {parts : List String} (h : p ∈ parts) (sep : String) :
    Occurs p (sep.intercalate (parts.map fun q => "(" ++ q ++ ")")) := by
  induction parts with
  | nil => cases h
  | cons q qs ih =>
    cases qs with
    | nil =>
      rw [List.mem_singleton.mp h]
      simpa using (Occurs.refl q).within "(" ")"
    | cons r rs =>
      rw [List.map_cons, List.map_cons, String.intercalate_cons_cons]
      rcases List.mem_cons.mp h with rfl | h
      · have hp := ((Occurs.refl p).within "(" ")").within ""
          (sep ++ sep.intercalate (("(" ++ r ++ ")") :: rs.map fun q => "(" ++ q ++ ")"))
        simpa [String.append_assoc] using hp
      · simpa using (ih h).within ("(" ++ q ++ ")" ++ sep) ""

/-- Every part of a group occurs in its filter. -/
theorem occurs_groupFilter {p : String} {parts : List String} (h : p ∈ parts) (op : Connective)
    (negated : Bool) : Occurs p (groupFilter op negated parts) := by
  have hjoin : Occurs p (join op parts) := occurs_intercalate h _
  unfold groupFilter
  split
  case h_1 => cases h
  case h_2 q =>
    split
    · rw [List.mem_singleton.mp h]
      exact (Occurs.refl q).within "!(" ")"
    · exact hjoin
  case h_3 =>
    split
    · exact hjoin.within "!(" ")"
    · exact hjoin

theorem mem_nodeFilters_cons {cat : Catalog} {p : String} {n : Node} {ns : List Node} :
    p ∈ nodeFilters cat (n :: ns) ↔ nodeFilter? cat n = some p ∨ p ∈ nodeFilters cat ns := by
  rw [nodeFilters, List.mem_append, Option.mem_toList]

section Nodes

variable {cat : Catalog} {c : Condition} {t : String}

mutual

/-- A node has a filter if one of its conditions has, and that filter occurs in it. -/
theorem exists_nodeFilter?_of_mem (ht : conditionFilter? cat c = some t) {n : Node}
    (hc : c ∈ n.leaves) : ∃ p, nodeFilter? cat n = some p ∧ Occurs t p :=
  match n with
  | .condition c' => by
    rw [Node.leaves_condition, List.mem_singleton] at hc
    subst hc
    exact ⟨t, by rw [nodeFilter?, ht], .refl t⟩
  | .group op cs negated => by
    rw [Node.leaves_group] at hc
    obtain ⟨p, hp, hocc⟩ := exists_mem_nodeFilters_of_mem ht hc
    exact ⟨_, by rw [nodeFilter?], hocc.trans (occurs_groupFilter hp op negated)⟩

theorem exists_mem_nodeFilters_of_mem (ht : conditionFilter? cat c = some t) {ns : List Node}
    (hc : c ∈ ns.flatMap Node.leaves) : ∃ p ∈ nodeFilters cat ns, Occurs t p :=
  match ns with
  | [] => by cases hc
  | n :: ns => by
    rw [List.flatMap_cons, List.mem_append] at hc
    rcases hc with hc | hc
    · obtain ⟨p, hp, hocc⟩ := exists_nodeFilter?_of_mem ht hc
      exact ⟨p, mem_nodeFilters_cons.mpr (.inl hp), hocc⟩
    · obtain ⟨p, hp, hocc⟩ := exists_mem_nodeFilters_of_mem ht hc
      exact ⟨p, mem_nodeFilters_cons.mpr (.inr hp), hocc⟩

end

/-- The filter of a condition occurs in the filter of the expression. -/
theorem occurs_filter (ht : conditionFilter? cat c = some t) {e : Expression} (hc : c ∈ e.leaves)
    {text : String} (htext : filter cat e = .ok text) : Occurs t text := by
  rw [filter_eq_ok_iff] at htext
  obtain ⟨-, rfl⟩ := htext
  rw [Expression.leaves, Expression.toNode, Node.leaves_group] at hc
  obtain ⟨p, hp, hocc⟩ := exists_mem_nodeFilters_of_mem ht hc
  exact hocc.trans (occurs_groupFilter hp e.connective e.negated)

end Nodes

/-! ## Trees that match -/

section Matches

variable {cat : Catalog} {R : Condition → Condition → Prop}

mutual

/-- Trees whose conditions contribute the same have the same filter. -/
theorem nodeFilter?_eq_of_matches
    (hR : ∀ c c', R c c' → conditionFilter? cat c = conditionFilter? cat c') {n n' : Node}
    (h : n.Matches R n') : nodeFilter? cat n = nodeFilter? cat n' :=
  match n, n' with
  | .condition c, .condition c' => by
    rw [Node.Matches] at h
    rw [nodeFilter?, nodeFilter?, hR c c' h]
  | .group op cs negated, .group op' cs' negated' => by
    rw [Node.Matches] at h
    obtain ⟨rfl, rfl, h⟩ := h
    rw [nodeFilter?, nodeFilter?, nodeFilters_eq_of_allMatch hR h]

/-- Nodes that differ in conditions of the same filters have the same filters. -/
theorem nodeFilters_eq_of_allMatch
    (hR : ∀ c c', R c c' → conditionFilter? cat c = conditionFilter? cat c') {ns ns' : List Node}
    (h : Node.AllMatch R ns ns') : nodeFilters cat ns = nodeFilters cat ns' :=
  match ns, ns' with
  | [], [] => rfl
  | n :: ns, n' :: ns' => by
    rw [Node.AllMatch] at h
    rw [nodeFilters, nodeFilters, nodeFilter?_eq_of_matches hR h.1,
      nodeFilters_eq_of_allMatch hR h.2]

end

/-- The filter of an expression depends on the filters of its conditions alone. -/
theorem filter_eq_of_matches
    (hR : ∀ c c', R c c' → conditionFilter? cat c = conditionFilter? cat c')
    (hwritable : ∀ c c', R c c' → isWritable cat c = isWritable cat c') {e e' : Expression}
    (h : e.toNode.Matches R e'.toNode) : filter cat e = filter cat e' := by
  have hgroup := Option.some.inj (nodeFilter?_eq_of_matches hR h)
  have hall : e.leaves.all (isWritable cat) = e'.leaves.all (isWritable cat) :=
    all_eq_of_forall₂ hwritable h.leaves
  rw [filter, filter, compile_eq, compile_eq, hall, hgroup]

end Matches

end Cohort.Search
