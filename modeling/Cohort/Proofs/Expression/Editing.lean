import Cohort.Expression.Edit
import Cohort.Proofs.Expression.RoundTrip

/-!
# Runs of edits

An edit changes what stands at the end of a path and leaves the leaves before
and behind it alone.  From this one description of `Expression.edit` it follows
when each kind of edit succeeds, that none of them leads out of the well-formed
trees, and so that a run of edits never leaves the trees that can be stored and
read back.
-/

namespace Cohort

namespace Node

/-! ## Places -/

/-- A child splits its siblings into those before and those behind it, and a change of the child
keeps them. -/
theorem exists_split_of_child? {cs : List Node} {i : Int} {n : Node} (h : child? cs i = some n) :
    ∃ before behind, cs = before ++ n :: behind ∧ (before.length : Int) = i ∧
      ∀ r : Option Node, place cs i r = before ++ r.toList ++ behind := by
  unfold child? at h
  split at h
  case isFalse => cases h
  case isTrue hi =>
    obtain ⟨hlt, rfl⟩ := List.getElem?_eq_some_iff.mp h
    refine ⟨cs.take i.toNat, cs.drop (i.toNat + 1), ?_, ?_, ?_⟩
    · rw [List.getElem_cons_drop, List.take_append_drop]
    · rw [List.length_take, Nat.min_eq_left (Nat.le_of_lt hlt)]
      exact Int.toNat_of_nonneg hi
    · intro r
      cases r with
      | none => simp [place, List.eraseIdx_eq_take_drop_succ]
      | some m => simp [place, List.set_eq_take_append_cons_drop, hlt]

/-- The steps of a path lead from a node to a node. -/
inductive Leads : Node → Path → Node → Prop
  | here (n : Node) : Leads n [] n
  | down {op : Connective} {cs : List Node} {negated : Bool} {i : Int} {p : Path} {n m : Node} :
      child? cs i = some n → Leads n p m → Leads (group op cs negated) (i :: p) m

/-- A walk succeeds just if the path leads somewhere, wherever it starts. -/
theorem walk_eq_ok_iff {taken depth : Nat} {n m : Node} {p : Path} :
    walk taken depth n p = .ok m ↔ Leads n p m := by
  constructor
  · intro h
    induction p generalizing n depth with
    | nil =>
      cases n <;> cases h <;> exact .here _
    | cons i p ih =>
      cases n with
      | condition c => cases h
      | group op cs negated =>
        rw [walk] at h
        split at h
        case h_1 n hn => exact .down hn (ih h)
        case h_2 => cases h
  · intro h
    induction h generalizing depth with
    | here n => cases n <;> rfl
    | down hn _ ih => rw [walk, hn]; exact ih

/-! ## Changes -/

variable {f : Change} {taken depth : Nat} {n m r : Node} {i : Int} {p : Path}

/-- The leaves of what stands in the place of a node. -/
def leavesOf (o : Option Node) : List Condition := o.toList.flatMap leaves

@[simp] theorem leavesOf_none : leavesOf none = [] := rfl

@[simp] theorem leavesOf_some (n : Node) : leavesOf (some n) = n.leaves := by
  simp [leavesOf]

/-- Changing a child replaces its conditions among those of its siblings. -/
theorem leaves_place {cs : List Node} (h : child? cs i = some n) :
    ∃ before behind, cs.flatMap leaves = before ++ n.leaves ++ behind ∧
      ∀ o, (place cs i o).flatMap leaves = before ++ leavesOf o ++ behind := by
  obtain ⟨before, behind, rfl, -, hplace⟩ := exists_split_of_child? h
  refine ⟨before.flatMap leaves, behind.flatMap leaves, by simp, ?_⟩
  intro o
  rw [hplace, List.flatMap_append, List.flatMap_append, leavesOf]

/-- A change of a child that succeeds is made in a group that has the child. -/
theorem exists_of_modify_nil (h : modify f taken depth n i [] = .ok r) :
    ∃ op cs negated m o, n = .group op cs negated ∧ child? cs i = some m ∧ f m = .ok o ∧
      r = .group op (place cs i o) negated := by
  cases n with
  | condition c => cases h
  | group op cs negated =>
    rw [modify] at h
    split at h
    case h_1 => cases h
    case h_2 m hm =>
      cases ho : f m with
      | error fault => rw [ho] at h; cases h
      | ok o =>
        rw [ho] at h
        cases h
        exact ⟨op, cs, negated, m, o, rfl, hm, ho, rfl⟩

/-- A change below a child that succeeds is made in a group that has the child. -/
theorem exists_of_modify_cons {j : Int} (h : modify f taken depth n i (j :: p) = .ok r) :
    ∃ op cs negated m m', n = .group op cs negated ∧ child? cs i = some m ∧
      modify f taken (depth + 1) m j p = .ok m' ∧ r = .group op (place cs i (some m')) negated := by
  cases n with
  | condition c => cases h
  | group op cs negated =>
    rw [modify] at h
    split at h
    case h_1 => cases h
    case h_2 m hm =>
      cases hr : modify f taken (depth + 1) m j p with
      | error fault => rw [hr] at h; cases h
      | ok m' =>
        rw [hr] at h
        cases h
        exact ⟨op, cs, negated, m, m', rfl, hm, hr, rfl⟩

/-- A change that succeeds is made at the end of the path, in a group, and the other leaves stay. -/
theorem exists_of_modify (h : modify f taken depth n i p = .ok r) :
    r.isGroup = true ∧ ∃ m o before behind, Leads n (i :: p) m ∧ f m = .ok o ∧
      n.leaves = before ++ m.leaves ++ behind ∧ r.leaves = before ++ leavesOf o ++ behind := by
  induction p generalizing n i r depth with
  | nil =>
    obtain ⟨op, cs, negated, m, o, rfl, hm, ho, rfl⟩ := exists_of_modify_nil h
    obtain ⟨before, behind, hleaves, hplace⟩ := leaves_place hm
    refine ⟨rfl, m, o, before, behind, .down hm (.here m), ho, ?_, ?_⟩
    · rw [leaves_group, hleaves]
    · rw [leaves_group, hplace]
  | cons j p ih =>
    obtain ⟨op, cs, negated, n, n', rfl, hn, hr, rfl⟩ := exists_of_modify_cons h
    obtain ⟨-, m, o, before, behind, hleads, ho, hleaves, hleaves'⟩ := ih hr
    obtain ⟨first, last, hall, hplace⟩ := leaves_place hn
    refine ⟨rfl, m, o, first ++ before, behind ++ last, .down hn hleads, ho, ?_, ?_⟩
    · rw [leaves_group, hall, hleaves]
      simp only [List.append_assoc]
    · rw [leaves_group, hplace, leavesOf_some, hleaves']
      simp only [List.append_assoc]

/-- A change that a path leads to and that succeeds is made. -/
theorem exists_modify {o : Option Node} (h : Leads n (i :: p) m) (ho : f m = .ok o)
    (taken depth : Nat) : ∃ r, modify f taken depth n i p = .ok r := by
  induction p generalizing n i depth with
  | nil =>
    obtain _ | ⟨hn, hm⟩ := h
    cases hm
    rw [modify, hn]
    exact ⟨_, by simp only [ho]; rfl⟩
  | cons j p ih =>
    obtain _ | ⟨hn, hm⟩ := h
    obtain ⟨r, hr⟩ := ih hm (depth + 1)
    rw [modify, hn]
    exact ⟨_, by simp only [hr]; rfl⟩

end Node

namespace Expression

open Node

variable {e t : Expression} {p : Path} {f : Change} {m : Node} {o : Option Node}

/-- There is a node at a path just if the path leads to it. -/
theorem at?_eq_ok_iff : e.at? p = .ok m ↔ Leads e.toNode p m := walk_eq_ok_iff

/-- What is at the end of the path has been changed, and the leaves before and behind it have been
kept.  At the root the change is the whole tree. -/
theorem exists_of_edit (h : e.edit p f = .ok t) :
    ∃ m o before behind, e.at? p = .ok m ∧ f m = .ok o ∧ (p = [] → o = some t.toNode) ∧
      e.leaves = before ++ m.leaves ++ behind ∧ t.leaves = before ++ leavesOf o ++ behind := by
  simp only [at?_eq_ok_iff]
  cases p with
  | nil =>
    unfold edit at h
    cases ho : f e.toNode with
    | error fault => rw [ho] at h; cases h
    | ok o =>
      rw [ho] at h
      cases o with
      | none => cases h
      | some n =>
        cases n with
        | condition c => cases h
        | group op cs negated =>
          cases h
          exact ⟨e.toNode, _, [], [], .here _, ho, fun _ => rfl, by simp [leaves], by
            simp [leaves, toNode]⟩
  | cons i p =>
    dsimp only [edit] at h
    cases hr : modify f p.length 0 e.toNode i p with
    | error fault => rw [hr] at h; cases h
    | ok r =>
      obtain ⟨hgroup, m, o, before, behind, hleads, ho, hleaves, hleaves'⟩ := exists_of_modify hr
      rw [hr] at h
      cases r with
      | condition c => cases hgroup
      | group op cs negated =>
        cases h
        refine ⟨m, o, before, behind, hleads, ho, ?_, hleaves, hleaves'⟩
        intro hnil
        cases hnil

/-- An edit succeeds if its change does and the root stays a group. -/
theorem exists_edit (hm : e.at? p = .ok m) (ho : f m = .ok o)
    (hroot : p = [] → ∃ n ∈ o, n.isGroup = true) : ∃ t, e.edit p f = .ok t := by
  rw [at?_eq_ok_iff] at hm
  unfold edit
  cases p with
  | nil =>
    obtain ⟨n, hn, hgroup⟩ := hroot rfl
    cases hm
    cases hn
    cases n with
    | condition c => cases hgroup
    | group op cs negated => exact ⟨⟨op, cs, negated⟩, by simp [ho, ofNode?]⟩
  | cons i p =>
    obtain ⟨r, hr⟩ := exists_modify hm ho p.length 0
    obtain ⟨hgroup, -⟩ := exists_of_modify hr
    cases r with
    | condition c => cases hgroup
    | group op cs negated => exact ⟨⟨op, cs, negated⟩, by simp [hr, ofNode?, Except.map]⟩

/-- A change at a path succeeds just if the path leads to a node, the node can be changed, and at
the root the change is a group. -/
theorem exists_edit_iff :
    (∃ t, e.edit p f = .ok t) ↔
      ∃ m o, e.at? p = .ok m ∧ f m = .ok o ∧ (p = [] → ∃ n ∈ o, n.isGroup = true) := by
  constructor
  · rintro ⟨t, h⟩
    obtain ⟨m, o, -, -, hm, ho, hroot, -, -⟩ := exists_of_edit h
    exact ⟨m, o, hm, ho, fun hp => ⟨t.toNode, hroot hp, rfl⟩⟩
  · rintro ⟨m, o, hm, ho, hroot⟩
    exact exists_edit hm ho hroot

/-- Only a group is at the root. -/
theorem isGroup_of_at?_root (h : e.at? [] = .ok m) : m.isGroup = true := by
  rw [at?_eq_ok_iff] at h
  cases h
  rfl

/-- Where groups stay groups, the root needs no attention. -/
theorem exists_edit_iff_of_isGroup
    (hf : ∀ m o, f m = .ok o → m.isGroup = true → ∃ n ∈ o, n.isGroup = true) :
    (∃ t, e.edit p f = .ok t) ↔ ∃ m o, e.at? p = .ok m ∧ f m = .ok o := by
  rw [exists_edit_iff]
  constructor
  · rintro ⟨m, o, hm, ho, -⟩
    exact ⟨m, o, hm, ho⟩
  · rintro ⟨m, o, hm, ho⟩
    refine ⟨m, o, hm, ho, ?_⟩
    rintro rfl
    exact hf m o ho (isGroup_of_at?_root hm)

/-! ## When edits succeed -/

/-- A node is replaced just if the path leads somewhere and the root stays a group. -/
theorem exists_replace_iff {n : Node} :
    (∃ t, e.replace p n = .ok t) ↔ (∃ m, e.at? p = .ok m) ∧ (p = [] → n.isGroup = true) := by
  unfold replace
  rw [exists_edit_iff]
  constructor
  · rintro ⟨m, o, hm, ho, hroot⟩
    cases ho
    exact ⟨⟨m, hm⟩, fun hp => by simpa using hroot hp⟩
  · rintro ⟨⟨m, hm⟩, hroot⟩
    exact ⟨m, some n, hm, rfl, fun hp => ⟨n, rfl, hroot hp⟩⟩

/-- Every node but the root can be removed. -/
theorem exists_remove_iff :
    (∃ t, e.remove p = .ok t) ↔ (∃ m, e.at? p = .ok m) ∧ p ≠ [] := by
  unfold remove
  cases p with
  | nil => exact ⟨nofun, fun h => absurd rfl h.2⟩
  | cons i p =>
    rw [List.isEmpty_cons, if_neg Bool.false_ne_true, exists_edit_iff]
    constructor
    · rintro ⟨m, o, hm, -, -⟩
      exact ⟨⟨m, hm⟩, nofun⟩
    · rintro ⟨⟨m, hm⟩, -⟩
      exact ⟨m, none, hm, rfl, nofun⟩

/-- A child is inserted at an index from zero to the number of children. -/
theorem exists_insertChild_iff (cs : List Node) (n : Node) {index : Option Int} :
    (∃ ns, insertChild cs n index = .ok ns) ↔ ∀ i ∈ index, 0 ≤ i ∧ i ≤ cs.length := by
  cases index with
  | none => simp [insertChild]
  | some i =>
    rw [insertChild]
    split
    case isTrue hi => simpa using hi
    case isFalse hi => simpa using hi

/-- The inserted node comes among the children, and nothing else does. -/
theorem mem_of_mem_insertChild {cs ns : List Node} {n : Node} {index : Option Int}
    (h : insertChild cs n index = .ok ns) {m : Node} (hm : m ∈ ns) : m = n ∨ m ∈ cs := by
  cases index with
  | none =>
    cases h
    rw [List.mem_append, List.mem_singleton] at hm
    exact hm.symm
  | some i =>
    rw [insertChild] at h
    split at h
    case isTrue hi =>
      cases h
      exact (List.mem_insertIdx (by omega)).mp hm
    case isFalse => cases h

/-- A node is inserted just if the path leads to a group and the index is one of its places. -/
theorem exists_insert_iff {n : Node} {index : Option Int} :
    (∃ t, e.insert p n index = .ok t) ↔
      ∃ op cs negated, e.at? p = .ok (.group op cs negated) ∧
        ∀ i ∈ index, 0 ≤ i ∧ i ≤ cs.length := by
  unfold insert
  rw [exists_edit_iff_of_isGroup]
  · constructor
    · rintro ⟨m, o, hm, ho⟩
      cases m with
      | condition c => cases ho
      | group op cs negated =>
        refine ⟨op, cs, negated, hm, (exists_insertChild_iff cs n).mp ?_⟩
        cases hns : insertChild cs n index with
        | error fault => simp [hns, Except.map] at ho
        | ok ns => exact ⟨ns, rfl⟩
    · rintro ⟨op, cs, negated, hm, hindex⟩
      obtain ⟨ns, hns⟩ := (exists_insertChild_iff cs n).mpr hindex
      exact ⟨_, some (.group op ns negated), hm, by simp [hns, Except.map]⟩
  · rintro m o ho -
    cases m with
    | condition c => cases ho
    | group op cs negated =>
      cases hns : insertChild cs n index with
      | error fault => simp [hns, Except.map] at ho
      | ok ns =>
        simp only [hns, Except.map, Except.ok.injEq] at ho
        exact ⟨_, ho.symm, rfl⟩

/-- Changes that can be named are made just where the path leads to a condition. -/
theorem exists_update_iff {ch : ConditionChange} :
    (∃ t, e.update p (.ok ch) = .ok t) ↔ ∃ c, e.at? p = .ok (.condition c) := by
  unfold update
  rw [exists_edit_iff_of_isGroup]
  · constructor
    · rintro ⟨m, o, hm, ho⟩
      cases m with
      | condition c => exact ⟨c, hm⟩
      | group => cases ho
    · rintro ⟨c, hm⟩
      exact ⟨_, _, hm, rfl⟩
  · rintro (c | _) o ho hgroup
    · cases hgroup
    · cases ho

/-- Every node can be toggled. -/
theorem exists_toggle_iff : (∃ t, e.toggle p = .ok t) ↔ ∃ m, e.at? p = .ok m := by
  unfold toggle
  rw [exists_edit_iff_of_isGroup]
  · constructor
    · rintro ⟨m, o, hm, -⟩
      exact ⟨m, hm⟩
    · rintro ⟨m, hm⟩
      cases m with
      | condition c => exact ⟨_, _, hm, rfl⟩
      | group op cs negated => exact ⟨_, _, hm, rfl⟩
  · rintro (c | ⟨op, cs, negated⟩) o ho hgroup
    · cases hgroup
    · cases ho
      exact ⟨_, rfl, rfl⟩

/-- A connective is set just if the path leads to a group and the connective is named. -/
theorem exists_setConnective_iff {raw : Value} :
    (∃ t, e.setConnective p raw = .ok t) ↔
      (∃ op cs negated, e.at? p = .ok (.group op cs negated)) ∧
        ∃ op : Connective, op.IsNamedBy raw := by
  simp only [← Connective.ofValue?_eq_some_iff]
  unfold setConnective
  cases hop : Connective.ofValue? raw with
  | none => exact ⟨nofun, nofun⟩
  | some op =>
    dsimp only
    rw [exists_edit_iff_of_isGroup]
    · constructor
      · rintro ⟨m, o, hm, ho⟩
        cases m with
        | condition c => cases ho
        | group op' cs negated => exact ⟨⟨op', cs, negated, hm⟩, op, rfl⟩
      · rintro ⟨⟨op', cs, negated, hm⟩, -⟩
        exact ⟨_, _, hm, rfl⟩
    · rintro (c | ⟨op', cs, negated⟩) o ho hgroup
      · cases hgroup
      · cases ho
        exact ⟨_, rfl, rfl⟩

end Expression

/-! ## Changes of conditions -/

namespace ConditionChange

/-- A part of a condition by its name, and a value that this part can have. -/
inductive Names : String × Value → Prop
  | field (s : String) : Names ("field", .text s)
  | operator (s : String) : Names ("operator", .text s)
  | value (v : Value) : Names ("value", v)
  | category {v : Value} : v = .text "" ∨ v.truthy = true → Names ("category", v)
  | negated (b : Bool) : Names ("negated", .bool b)

/-- What replaces the parts of a condition leaves it well formed. -/
structure IsWellFormed (ch : ConditionChange) : Prop where
  field : ∀ v ∈ ch.field, ∃ s, v = .text s
  operator : ∀ v ∈ ch.operator, ∃ s, v = .text s
  category : ∀ v ∈ ch.category, v = .text "" ∨ v.truthy = true

variable {ch : ConditionChange}

theorem IsWellFormed.set (hch : ch.IsWellFormed) {part : String × Value} (h : Names part) :
    ∃ ch', ch.set part.1 part.2 = .ok ch' ∧ ch'.IsWellFormed := by
  cases h with
  | field s => exact ⟨_, rfl, { hch with field := by rintro v ⟨⟩; exact ⟨s, rfl⟩ }⟩
  | operator s => exact ⟨_, rfl, { hch with operator := by rintro v ⟨⟩; exact ⟨s, rfl⟩ }⟩
  | value v => exact ⟨_, rfl, { hch with }⟩
  | category hv => exact ⟨_, rfl, { hch with category := by rintro v ⟨⟩; exact hv }⟩
  | negated b => exact ⟨_, rfl, { hch with }⟩

/-- Changes of parts by their names are read, and leave conditions well formed. -/
theorem exists_ofNamed {parts : List (String × Value)} (h : ∀ part ∈ parts, Names part) :
    ∃ ch, ofNamed parts = .ok ch ∧ ch.IsWellFormed := by
  suffices ∀ ch : ConditionChange, ch.IsWellFormed → ∃ ch',
      parts.foldlM (fun ch part => ch.set part.1 part.2) ch = .ok ch' ∧ ch'.IsWellFormed from
    this {} ⟨nofun, nofun, nofun⟩
  induction parts with
  | nil => exact fun ch hch => ⟨ch, rfl, hch⟩
  | cons part parts ih =>
    intro ch hch
    obtain ⟨hpart, hparts⟩ := List.forall_mem_cons.mp h
    obtain ⟨ch', hset, hch'⟩ := hch.set hpart
    rw [List.foldlM_cons, hset]
    exact ih hparts ch' hch'

/-- Well-formed changes keep conditions well-formed. -/
theorem IsWellFormed.apply (hch : ch.IsWellFormed) {c : Condition} (hc : c.IsWellFormed) :
    (ch.apply c).IsWellFormed := by
  constructor
  · unfold ConditionChange.apply
    cases hv : ch.field with
    | none => exact hc.field
    | some v => exact hch.field v hv
  · unfold ConditionChange.apply
    cases hv : ch.operator with
    | none => exact hc.operator
    | some v => exact hch.operator v hv
  · unfold ConditionChange.apply
    cases hv : ch.category with
    | none => exact hc.category
    | some v => exact hch.category v hv

end ConditionChange

/-! ## Well-formed trees -/

namespace Expression.IsWellFormed

variable {e t : Expression} {p : Path}

/-- A change that keeps to well-formed leaves keeps the tree well formed. -/
theorem edit {f : Node.Change} (he : e.IsWellFormed)
    (h : e.edit p f = .ok t)
    (hf : ∀ m o, (∀ c ∈ m.leaves, c.IsWellFormed) → f m = .ok o →
      ∀ c ∈ Node.leavesOf o, c.IsWellFormed) : t.IsWellFormed := by
  obtain ⟨m, o, before, behind, -, ho, -, hleaves, hleaves'⟩ := exists_of_edit h
  rw [Expression.IsWellFormed, hleaves, List.forall_mem_append, List.forall_mem_append] at he
  obtain ⟨⟨hbefore, hm⟩, hbehind⟩ := he
  rw [Expression.IsWellFormed, hleaves', List.forall_mem_append, List.forall_mem_append]
  exact ⟨⟨hbefore, hf m o hm ho⟩, hbehind⟩

theorem replace {n : Node} (he : e.IsWellFormed) (hn : ∀ c ∈ n.leaves, c.IsWellFormed)
    (h : e.replace p n = .ok t) : t.IsWellFormed := by
  refine he.edit h ?_
  rintro m o - ho
  cases ho
  rwa [Node.leavesOf_some]

theorem remove (he : e.IsWellFormed) (h : e.remove p = .ok t) : t.IsWellFormed := by
  unfold Expression.remove at h
  split at h
  case isTrue => cases h
  case isFalse =>
    refine he.edit h ?_
    rintro m o - ho
    cases ho
    nofun

/-- A well-formed node can be inserted into a well-formed tree. -/
theorem insert {n : Node} {index : Option Int} (he : e.IsWellFormed)
    (hn : ∀ c ∈ n.leaves, c.IsWellFormed) (h : e.insert p n index = .ok t) : t.IsWellFormed := by
  refine he.edit h ?_
  rintro (c | ⟨op, cs, negated⟩) o hm ho
  · cases ho
  · cases hns : insertChild cs n index with
    | error fault => simp [hns, Except.map] at ho
    | ok ns =>
      simp only [hns, Except.map, Except.ok.injEq] at ho
      subst ho
      rw [Node.leaves_group] at hm
      rw [Node.leavesOf_some, Node.leaves_group]
      intro c hc
      obtain ⟨m, hmem, hc⟩ := List.mem_flatMap.mp hc
      rcases mem_of_mem_insertChild hns hmem with rfl | hmem
      · exact hn c hc
      · exact hm c (List.mem_flatMap.mpr ⟨m, hmem, hc⟩)

/-- Well-formed changes of a condition keep the tree well-formed. -/
theorem update {ch : ConditionChange} (he : e.IsWellFormed) (hch : ch.IsWellFormed)
    (h : e.update p (.ok ch) = .ok t) : t.IsWellFormed := by
  refine he.edit h ?_
  rintro (c | _) o hm ho
  · cases ho
    simp only [Node.leaves_condition, List.forall_mem_singleton, Node.leavesOf_some] at hm ⊢
    exact hch.apply hm
  · cases ho

theorem toggle (he : e.IsWellFormed) (h : e.toggle p = .ok t) : t.IsWellFormed := by
  refine he.edit h ?_
  rintro (c | ⟨op, cs, negated⟩) o hm ho
  · cases ho
    simp only [Node.leaves_condition, List.forall_mem_singleton, Node.leavesOf_some] at hm ⊢
    exact { hm with }
  · cases ho
    rw [Node.leaves_group] at hm
    rwa [Node.leavesOf_some, Node.leaves_group]

theorem setConnective {raw : Value} (he : e.IsWellFormed) (h : e.setConnective p raw = .ok t) :
    t.IsWellFormed := by
  unfold Expression.setConnective at h
  split at h
  case h_1 => cases h
  case h_2 op =>
    refine he.edit h ?_
    rintro (c | ⟨op', cs, negated⟩) o hm ho
    · cases ho
    · cases ho
      rw [Node.leaves_group] at hm
      rwa [Node.leavesOf_some, Node.leaves_group]

end Expression.IsWellFormed

/-! ## Messages -/

namespace EditFault

/-- The values that the message of a fault tells, if an edit is given a path and an index. -/
def told (path : List Value) (index : Value) : EditFault → List Value
  | intoCondition taken _ => path.take taken
  | noChild taken depth => path.take taken ++ [path.getD depth .null]
  | noNode | notGroup | notCondition => path
  | indexOutOfRange => [index]
  | unknownConnective raw => [raw]
  | rootNotGroup | removeRoot | unknownName _ => []

/-- A fault has a message just if every value it tells can be written. -/
theorem isWriting_message (path : List Value) (index : Value) (fault : EditFault) :
    Value.IsWriting (fault.message path index) ((fault.told path index).all (·.isWritable)) := by
  have hpath (taken : List Value) :
      Value.IsWriting (Value.tuple taken).literal (taken.all (·.isWritable)) := by
    rw [← Value.areWritable_eq_all]
    exact Value.isWriting_literal _
  have hone {v : Value} : [v].all (·.isWritable) = v.isWritable := by simp
  cases fault with
  | intoCondition taken depth => exact (hpath _).map _
  | noChild taken depth =>
    rw [told, List.all_append, hone]
    exact (hpath _).bind fun _ _ => (Value.isWriting_display _).map _
  | noNode | notGroup | notCondition => exact (hpath _).map _
  | indexOutOfRange => exact hone ▸ (Value.isWriting_display _).map _
  | unknownConnective raw => exact hone ▸ (Value.isWriting_literal _).map _
  | rootNotGroup | removeRoot | unknownName _ => exact .pure _

end EditFault

/-! ## Steps -/

/-- A step of an editor. -/
inductive Edit where
  | replace (p : Path) (n : Node)
  | remove (p : Path)
  | insert (p : Path) (n : Node) (index : Option Int)
  | update (p : Path) (changes : List (String × Value))
  | toggle (p : Path)
  | setConnective (p : Path) (raw : Value)

namespace Edit

def apply (e : Expression) : Edit → Except EditFault Expression
  | replace p n => e.replace p n
  | remove p => e.remove p
  | insert p n index => e.insert p n index
  | update p changes => e.update p (ConditionChange.ofNamed changes)
  | toggle p => e.toggle p
  | setConnective p raw => e.setConnective p raw

def path : Edit → Path
  | replace p _ | remove p | insert p _ _ | update p _ | toggle p | setConnective p _ => p

/-- The index that an edit is given, null if there is none. -/
def index : Edit → Value
  | insert _ _ (some i) => .int i
  | _ => .null

def message (s : Edit) (fault : EditFault) : Except Misuse String :=
  fault.message (s.path.map .int) s.index

/-- The values that the message of a fault of an edit tells. -/
def told (s : Edit) (fault : EditFault) : List Value := fault.told (s.path.map .int) s.index

theorem isWriting_message (s : Edit) (fault : EditFault) :
    Value.IsWriting (s.message fault) ((s.told fault).all (·.isWritable)) :=
  fault.isWriting_message _ _

/-- One value that cannot be written leaves a fault without a message. -/
theorem message_of_mem_told {s : Edit} {fault : EditFault} {v : Value} (hv : v ∈ s.told fault)
    (h : v.isWritable = false) : s.message fault = .error .value := by
  refine (s.isWriting_message fault).error_iff.mpr ⟨?_, rfl⟩
  rw [List.all_eq_false]
  exact ⟨v, hv, by simp [h]⟩

/-- Nodes that are put into a tree are well formed, and changes name parts of conditions. -/
def IsWellFormed : Edit → Prop
  | replace _ n | insert _ n _ => ∀ c ∈ n.leaves, c.IsWellFormed
  | update _ changes => ∀ part ∈ changes, ConditionChange.Names part
  | remove _ | toggle _ | setConnective _ _ => True

/-- The path of an edit leads to a node of the kind that the edit is made for. -/
def IsPermitted (e : Expression) : Edit → Prop
  | replace p n => (∃ m, e.at? p = .ok m) ∧ (p = [] → n.isGroup = true)
  | remove p => (∃ m, e.at? p = .ok m) ∧ p ≠ []
  | insert p _ index => ∃ op cs negated, e.at? p = .ok (.group op cs negated) ∧
      ∀ i ∈ index, 0 ≤ i ∧ i ≤ cs.length
  | update p _ => ∃ c, e.at? p = .ok (.condition c)
  | toggle p => ∃ m, e.at? p = .ok m
  | setConnective p raw => (∃ op cs negated, e.at? p = .ok (.group op cs negated)) ∧
      ∃ op : Connective, op.IsNamedBy raw

variable {e t : Expression} {s : Edit}

/-- An edit succeeds just if it is permitted. -/
theorem exists_apply_iff (hs : s.IsWellFormed) :
    (∃ t, s.apply e = .ok t) ↔ s.IsPermitted e := by
  cases s with
  | replace p n => exact Expression.exists_replace_iff
  | remove p => exact Expression.exists_remove_iff
  | insert p n index => exact Expression.exists_insert_iff
  | update p changes =>
    obtain ⟨ch, hch, -⟩ := ConditionChange.exists_ofNamed hs
    rw [apply, hch]
    exact Expression.exists_update_iff
  | toggle p => exact Expression.exists_toggle_iff
  | setConnective p raw => exact Expression.exists_setConnective_iff

/-- An edit does not lead out of the well-formed trees. -/
theorem isWellFormed_of_apply (hs : s.IsWellFormed) (he : e.IsWellFormed) (h : s.apply e = .ok t) :
    t.IsWellFormed := by
  cases s with
  | replace p n => exact he.replace hs h
  | remove p => exact he.remove h
  | insert p n index => exact he.insert hs h
  | update p changes =>
    obtain ⟨ch, hch, hwf⟩ := ConditionChange.exists_ofNamed hs
    rw [apply, hch] at h
    exact he.update hwf h
  | toggle p => exact he.toggle h
  | setConnective p raw => exact he.setConnective h

/-- The tree after some edits, one after the other.  An edit that fails leaves the tree as it is. -/
def run (e : Expression) : List Edit → Expression
  | [] => e
  | s :: ss =>
    match s.apply e with
    | .ok t => run t ss
    | .error _ => run e ss

/-- Well-formed edits keep a tree well-formed, in any number. -/
theorem isWellFormed_run {ss : List Edit} (hss : ∀ s ∈ ss, s.IsWellFormed) (he : e.IsWellFormed) :
    (run e ss).IsWellFormed := by
  induction ss generalizing e with
  | nil => exact he
  | cons s ss ih =>
    obtain ⟨hs, hss⟩ := List.forall_mem_cons.mp hss
    rw [run]
    split
    case h_1 t ht => exact ih hss (isWellFormed_of_apply hs he ht)
    case h_2 => exact ih hss he

/-- Runs of edits stay inside the trees that can be stored: after any edits, a further one succeeds
just if its path leads to a node of its kind, it comes to a well-formed tree again, and a tree that
keeps to the depth is read back as it is.  One that does not succeed has a message, unless that
would tell a number with too many digits. -/
theorem run_stays_storable {ss : List Edit} (he : e.IsWellFormed)
    (hss : ∀ s ∈ ss, s.IsWellFormed) :
    (run e ss).IsWellFormed ∧
    (∀ s : Edit, s.IsWellFormed →
      ((∃ t, s.apply (run e ss) = .ok t) ↔ s.IsPermitted (run e ss)) ∧
      (∀ t, s.apply (run e ss) = .ok t → t.IsWellFormed) ∧
      ∀ fault, s.apply (run e ss) = .error fault →
        Value.IsWriting (s.message fault) ((s.told fault).all (·.isWritable))) ∧
    ∀ limit : Int, (run e ss).depth ≤ limit →
      Reading.read { maxDepth := limit } (run e ss).toValue = .ok (run e ss) := by
  have hrun := isWellFormed_run hss he
  refine ⟨hrun, ?_, ?_⟩
  · intro s hs
    exact ⟨exists_apply_iff hs, fun t ht => isWellFormed_of_apply hs hrun ht,
      fun fault _ => s.isWriting_message fault⟩
  · intro limit hdepth
    rw [Reading.read_toValue hrun hdepth, Expression.graft_eq_self]
    intro c _
    rfl

/-- Six edits in a row, of which three are refused. -/
theorem run_stays_storable_nested :
    let c : Condition := { field := .text "intent.score", operator := .text "gte", value := .int 5 }
    let ss : List Edit := [
      .insert [] (.group .or [.condition c] false) none,
      .insert [0] (.group .and [] true) (some 2),
      .update [0, 0] [("negated", .bool true), ("category", .text "intent")],
      .setConnective [0] (.text "And"),
      .toggle [0, 0, 0],
      .remove [1]]
    let t : Expression := { children := [
      .group .and [.condition { c with negated := true, category := .text "intent" }] false] }
    (∀ s ∈ ss, s.IsWellFormed) ∧ run {} ss = t ∧ t.IsWellFormed ∧
      Reading.read { maxDepth := 2 } t.toValue = .ok t ∧
      (Edit.remove [0, 0]).IsPermitted t := by
  intro c ss t
  have hc : c.IsWellFormed := ⟨⟨_, rfl⟩, ⟨_, rfl⟩, .inl rfl⟩
  have hss : ∀ s ∈ ss, s.IsWellFormed := by
    simp only [ss, List.forall_mem_cons, List.not_mem_nil, false_implies, implies_true, and_true,
      IsWellFormed, Node.leaves_group, Node.leaves_condition, List.flatMap_cons, List.flatMap_nil,
      List.append_nil, true_and]
    exact ⟨hc, .negated true, .category (.inr rfl)⟩
  have hrun : run {} ss = t := rfl
  have hempty : ({} : Expression).IsWellFormed := nofun
  obtain ⟨hwf, hsteps, hread⟩ := run_stays_storable hempty hss
  rw [hrun] at hwf hsteps hread
  refine ⟨hss, hrun, hwf, hread 2 (by decide), ?_⟩
  exact ((hsteps (.remove [0, 0]) trivial).1).mp ⟨_, rfl⟩

/-- An edit whose path has an index with too many digits fails without a message. -/
theorem message_tooLong :
    let c : Condition :=
      { field := .text "intent.score", operator := .text "gte", value := .tooLong }
    let e : Expression := { children := [.condition c] }
    let s : Edit := .toggle [Value.tooLongNumber]
    e.IsWellFormed ∧ s.IsWellFormed ∧ s.apply e = .error .noNode ∧
      s.message .noNode = .error .value := by
  intro c e s
  have hwf : e.IsWellFormed := by
    intro c' hc'
    rw [Expression.leaves, Expression.toNode, Node.leaves_group, List.flatMap_singleton,
      Node.leaves_condition, List.mem_singleton] at hc'
    subst hc'
    exact ⟨⟨_, rfl⟩, ⟨_, rfl⟩, .inl rfl⟩
  have hchild : Node.child? e.children Value.tooLongNumber = none := by
    have hlength : e.children.length ≤ Value.tooLongNumber.toNat := Value.one_le_tooLongNumber
    rw [Node.child?, List.getElem?_eq_none hlength, ite_self]
  refine ⟨hwf, trivial, ?_, message_of_mem_told List.mem_cons_self Value.isWritable_tooLong⟩
  change Expression.toggle _ _ = _
  rw [Expression.toggle, Expression.edit, Expression.toNode, Node.modify, hchild]
  rfl

end Edit

end Cohort
