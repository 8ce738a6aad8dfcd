import Cohort.Proofs.Expression.Editing
import Cohort.Proofs.Expression.Siblings
import Cohort.Proofs.Search.Meaning

/-!
# Conditions that the search leaves out

A condition without a test is not seen in the filter of a tree: wherever it is
put in or taken out, the groups around it are left with the same filters of
their other children.  Only a warning about it that cannot be written is seen:
then the tree has no filter, with the condition in it.
-/

namespace Cohort.Search

open Node (Leads alter child? exists_split_of_child?)

variable {cat : Catalog} {c : Condition} {e t : Expression} {p : Path}

/-! ## The filter of an altered tree -/

theorem nodeFilters_append (ns ms : List Node) :
    nodeFilters cat (ns ++ ms) = nodeFilters cat ns ++ nodeFilters cat ms := by
  induction ns with
  | nil => rfl
  | cons n ns ih => rw [List.cons_append, nodeFilters, nodeFilters, ih, List.append_assoc]

theorem nodeFilters_middle (before behind : List Node) (n : Node) :
    nodeFilters cat (before ++ n :: behind) =
      nodeFilters cat before ++ (nodeFilter? cat n).toList ++ nodeFilters cat behind := by
  rw [nodeFilters_append, nodeFilters, List.append_assoc]

/-- An alteration that keeps the filter of the node at the end of the path keeps that of the
tree. -/
theorem nodeFilter?_alter {f : Node → Node} {n m : Node} (h : Leads n p m)
    (hf : nodeFilter? cat (f m) = nodeFilter? cat m) :
    nodeFilter? cat (alter f p n) = nodeFilter? cat n := by
  induction h with
  | here n => exact hf
  | @down op cs negated i p n m hn _ ih =>
    obtain ⟨before, behind, hcs, -, hplace⟩ := exists_split_of_child? hn
    have hchildren : nodeFilters cat (Node.alterChild (alter f p) i cs) = nodeFilters cat cs := by
      rw [Node.alterChild_eq_place hn, hplace, hcs, Option.toList_some, List.append_assoc,
        List.singleton_append, nodeFilters_middle, nodeFilters_middle, ih hf]
    rw [alter, Node.onChildren, nodeFilter?, nodeFilter?, hchildren]

/-- Changing a node without changing its filter leaves the filter around it as it is. -/
theorem groupFilter_eq_of_alter {f : Node → Node} {m : Node} (hm : e.at? p = .ok m)
    (ht : t.toNode = alter f p e.toNode) (hf : nodeFilter? cat (f m) = nodeFilter? cat m) :
    groupFilter t.connective t.negated (nodeFilters cat t.children) =
      groupFilter e.connective e.negated (nodeFilters cat e.children) := by
  have hnode := nodeFilter?_alter (Expression.at?_eq_ok_iff.mp hm) hf
  rw [← ht] at hnode
  exact Option.some.inj hnode

/-- A child without a filter is not seen among its siblings. -/
theorem nodeFilters_eraseIdx {n : Node} {cs : List Node} {i : Nat} (hn : nodeFilter? cat n = none)
    (hchild : child? cs i = some n) : nodeFilters cat (cs.eraseIdx i) = nodeFilters cat cs := by
  obtain ⟨before, behind, rfl, -, hplace⟩ := exists_split_of_child? hchild
  have herase : (before ++ n :: behind).eraseIdx i = before ++ [] ++ behind := hplace none
  rw [herase, List.append_nil, nodeFilters_append, nodeFilters_middle, hn, Option.toList_none,
    List.append_nil]

/-! ## Conditions without a test -/

/-- Removing a condition that is not searched for leaves the filters around it as they are. -/
theorem groupFilter_of_remove (hc : isUnsearched cat c = true)
    (hm : e.at? p = .ok (.condition c)) (ht : e.remove p = .ok t) :
    groupFilter t.connective t.negated (nodeFilters cat t.children) =
      groupFilter e.connective e.negated (nodeFilters cat e.children) := by
  cases p using List.reverseRecOn with
  | nil => cases Expression.isGroup_of_at?_root hm
  | append_singleton p i =>
    obtain ⟨x, hx, hlast⟩ := Node.leads_append_iff.mp (Expression.at?_eq_ok_iff.mp hm)
    cases hlast with
    | @down op cs negated _ _ _ _ hchild hhere =>
      cases hhere
      obtain ⟨k, rfl, -⟩ := Node.exists_natCast_of_child? hchild
      have hgroup := Expression.at?_eq_ok_iff.mpr hx
      rw [Expression.remove_eq_alter hgroup hchild, Expression.ofRoot_eq_ok_iff] at ht
      refine groupFilter_eq_of_alter hgroup ht ?_
      have hn : nodeFilter? cat (.condition c) = none := by
        rw [nodeFilter?, conditionFilter?, test?_of_isUnsearched hc, Option.map_none]
      rw [Node.onChildren, nodeFilter?, nodeFilter?, nodeFilters_eraseIdx hn hchild]

/-- What is left when a condition is removed are the leaves before and behind it. -/
theorem exists_leaves_of_remove (hm : e.at? p = .ok (.condition c)) (ht : e.remove p = .ok t) :
    ∃ before behind, e.leaves = before ++ c :: behind ∧ t.leaves = before ++ behind := by
  unfold Expression.remove at ht
  split at ht
  case isTrue => cases ht
  case isFalse =>
    obtain ⟨m, o, before, behind, hm', ho, -, hleaves, hleaves'⟩ := Expression.exists_of_edit ht
    cases ho
    obtain rfl : .condition c = m := Except.ok.inj (hm.symm.trans hm')
    exact ⟨before, behind, by simpa using hleaves, by simpa using hleaves'⟩

/-- A filter of a tree with a condition that has no test, and of the tree without the condition. -/
structure Disregards (cat : Catalog) (c : Condition) (whole rest : Expression) : Prop where
  same : isWritable cat c = true → filter cat whole = filter cat rest
  misuse : isWritable cat c = false → filter cat whole = .error .value

/-- What remains when a condition is removed has the same filter, or the condition alone was in its
way. -/
theorem disregards_of_remove (hc : isUnsearched cat c = true)
    (hm : e.at? p = .ok (.condition c)) (ht : e.remove p = .ok t) : Disregards cat c e t := by
  obtain ⟨before, behind, hleaves, hleaves'⟩ := exists_leaves_of_remove hm ht
  constructor
  · intro hwritable
    rw [filter, filter, compile_eq, compile_eq, groupFilter_of_remove hc hm ht, hleaves, hleaves',
      List.all_append, List.all_append, List.all_cons, hwritable, Bool.true_and]
  · refine filter_of_not_isWritable ?_
    rw [hleaves]
    exact List.mem_append_right _ List.mem_cons_self

/-- A condition on a field that is unknown or not indexed, with an unknown operator, or with a value
that does not fit, can be taken out of a tree, and put into any group of a tree at any place.  The
filter of the tree stays as it is, unless a warning about the condition cannot be written: then
there is no filter with the condition in the tree. -/
theorem filter_of_unsearched
    (h : cat.find? c.field = none ∨ ∃ f, cat.find? c.field = some f ∧
      (f.searchPath.truthy = false ∨ Operator.ofValue? c.operator = none ∨
        ∃ op, Operator.ofValue? c.operator = some op ∧ fits op c.value = false)) :
    (∀ (e : Expression) (p : Path), e.at? p = .ok (.condition c) →
      ∃ t, e.remove p = .ok t ∧ Disregards cat c e t) ∧
    ∀ (e : Expression) (p : Path) op cs negated (index : Option Int),
      e.at? p = .ok (.group op cs negated) → (∀ i ∈ index, 0 ≤ i ∧ i ≤ cs.length) →
      ∃ t, e.insert p (.condition c) index = .ok t ∧ Disregards cat c t e := by
  have hc : isUnsearched cat c = true := isUnsearched_iff.mpr h
  constructor
  · intro e p hm
    have hp : p ≠ [] := by
      rintro rfl
      cases Expression.isGroup_of_at?_root hm
    obtain ⟨t, ht⟩ := Expression.exists_remove_iff.mpr ⟨⟨_, hm⟩, hp⟩
    exact ⟨t, ht, disregards_of_remove hc hm ht⟩
  · intro e p op cs negated index hgroup hindex
    obtain ⟨i, hi, hsame⟩ : ∃ i : Nat, i ≤ cs.length ∧
        e.insert p (.condition c) index = e.insert p (.condition c) (some i) := by
      cases index with
      | none => exact ⟨cs.length, Nat.le_refl _, Expression.insert_none hgroup _⟩
      | some i =>
        obtain ⟨hnonneg, hle⟩ := hindex i rfl
        obtain ⟨k, rfl⟩ := Int.eq_ofNat_of_zero_le hnonneg
        exact ⟨k, by omega, rfl⟩
    obtain ⟨t, ht⟩ := Expression.exists_insert_iff.mpr ⟨op, cs, negated, hgroup, hindex⟩
    refine ⟨t, ht, ?_⟩
    -- taking the condition out again leads back
    rw [hsame] at ht
    obtain ⟨-, hn⟩ := Expression.at?_of_insert hgroup hi ht
    exact disregards_of_remove hc hn (Expression.remove_of_insert hgroup hi ht)

/-- A condition on a field that is not indexed, two groups deep. -/
theorem filter_of_unsearched_nested :
    let c : Condition := { field := .text "business.revenue", operator := .text "gte",
                           value := .int 1, negated := true }
    let d : Node := .condition { field := .text "intent.score", operator := .text "gte",
                                 value := .int 50 }
    let e : Expression := { connective := .or, children := [d, .group .and [.condition c, d] true] }
    let t : Expression := { connective := .or, children := [d, .group .and [d] true] }
    (∃ f, Catalog.bundled.find? c.field = some f ∧ f.searchPath.truthy = false) ∧
      isWritable .bundled c = true ∧ e.remove [1, 0] = .ok t ∧
      t.insert [1] (.condition c) (some 0) = .ok e ∧ filter .bundled e = filter .bundled t := by
  intro c d e t
  have hc : ∃ f, Catalog.bundled.find? c.field = some f ∧ f.searchPath.truthy = false :=
    ⟨_, rfl, rfl⟩
  have hwritable : isWritable .bundled c = true := by decide +kernel
  obtain ⟨hremove, -⟩ := filter_of_unsearched (.inr (hc.imp fun _ => And.imp_right .inl))
  obtain ⟨t', ht', hfilter⟩ := hremove e [1, 0] rfl
  obtain rfl : t = t' := Except.ok.inj ht'
  exact ⟨hc, hwritable, ht', rfl, hfilter.same hwritable⟩

/-- A range without an upper bound has no test, and yet a tree has no filter with it in it if the
warning about its bound cannot be written, and has one without it. -/
theorem filter_of_unsearched_tooLong :
    let c : Condition := { field := .text "intent.score", operator := .text "between",
                           value := .list [.tooLong] }
    let e : Expression := { children := [.condition c] }
    fits .between c.value = false ∧ filter .bundled e = .error .value ∧
      e.remove [0] = .ok {} ∧ filter .bundled {} = .ok matchAll := by
  intro c e
  have hfate : fate .bundled c = .dropped .malformedValue := rfl
  have hvalue : c.value.isWritable = false := Value.isWritable_list_tooLong
  have hunfit : isWritable .bundled c = false := by
    rw [isWritable_of_dropped hfate]
    simp [DropCause.told, hvalue]
  refine ⟨rfl, ?_, rfl, rfl⟩
  exact filter_of_not_isWritable (List.mem_singleton_self c) hunfit

end Cohort.Search
