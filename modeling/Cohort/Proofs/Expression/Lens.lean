import Cohort.Proofs.Expression.Alteration

/-!
# Replacing is a lens

A path that leads to a node is a place of the tree that can be looked at and
written to.  What is written is read back, writing back what is there changes
nothing, and of two nodes written the later one counts.  Around the place the
tree stays the same: a walk that parts from the path ends as it did, and a group
on the path has another child in the direction of the path and no other change.
-/

namespace Cohort

namespace Expression

open Node

variable {e t : Expression} {p : Path} {m n : Node} {f : Node → Node}

/-- Two trees are the same around the end of a path. -/
structure SameAround (p : Path) (e t : Expression) : Prop where
  /-- Walks that part from the path end alike. -/
  apart : ∀ q, ¬p <+: q → ¬q <+: p → t.at? q = e.at? q
  /-- The groups above the end differ in the child on the way alone. -/
  above : ∀ q i s, p = q ++ i :: s → ∃ op cs cs' negated,
    e.at? q = .ok (.group op cs negated) ∧ t.at? q = .ok (.group op cs' negated) ∧
      cs'.length = cs.length ∧ ∀ j, j ≠ i → child? cs' j = child? cs j

/-- An alteration is not seen around the end of its path. -/
theorem sameAround_of_alter (hm : e.at? p = .ok m) (ht : t.toNode = alter f p e.toNode) :
    SameAround p e t where
  apart q hpq hqp := by
    unfold at? Node.at?
    rw [ht]
    exact walk_alter_of_apart hpq hqp f e.toNode _ 0
  above q i s hp := by
    simp only [at?_eq_ok_iff] at hm ⊢
    rw [hp] at hm ht
    obtain ⟨x, hx, hdown⟩ := leads_append_iff.mp hm
    cases hdown with
    | @down op cs negated _ _ _ _ hchild _ =>
      have habove := hx.alter_above f (i :: s)
      rw [← ht] at habove
      refine ⟨op, cs, alterChild (alter f s) i cs, negated, hx, habove, length_alterChild .., ?_⟩
      intro j hj
      rw [child?_alterChild]
      simp [hj.symm]

/-- After an alteration the altered node is at the path. -/
theorem at?_of_alter (hm : e.at? p = .ok m) (ht : t.toNode = alter f p e.toNode) :
    t.at? p = .ok (f m) := by
  rw [at?_eq_ok_iff] at hm ⊢
  rw [ht]
  exact hm.alter f

/-- An alteration keeps the root a group, unless it is made at the root and makes no group of it. -/
theorem exists_ofRoot_alter (hroot : p = [] → (f e.toNode).isGroup = true) :
    ∃ t, ofRoot (alter f p e.toNode) = .ok t := by
  refine exists_ofRoot ?_
  cases p with
  | nil => exact hroot rfl
  | cons i p => exact isGroup_alter_cons f i p e.toNode

/-- Replacing is an alteration, where the path leads somewhere. -/
theorem replace_eq_alter (hm : e.at? p = .ok m) (n : Node) :
    e.replace p n = ofRoot (alter (fun _ => n) p e.toNode) :=
  edit_eq_alter hm rfl

/-- Replacing and looking at the node at a path are a lens, and the tree around the path stays the
same. -/
theorem replace_lens (hm : e.at? p = .ok m) (hn : p = [] → n.isGroup = true) :
    ∃ t, e.replace p n = .ok t ∧ t.at? p = .ok n ∧ e.replace p m = .ok e ∧
      (∀ n', t.replace p n' = e.replace p n') ∧ SameAround p e t := by
  obtain ⟨t, ht⟩ := exists_ofRoot_alter (e := e) (f := fun _ => n) hn
  have hnode := ofRoot_eq_ok_iff.mp ht
  have hread := at?_of_alter hm hnode
  refine ⟨t, (replace_eq_alter hm n).trans ht, hread, ?_, ?_, sameAround_of_alter hm hnode⟩
  · rw [replace_eq_alter hm, alter_eq_self (at?_eq_ok_iff.mp hm) rfl, ofRoot_toNode]
  · intro n'
    rw [replace_eq_alter hread, replace_eq_alter hm, hnode, alter_alter]
    rfl

/-- A condition two levels deep is replaced by a group. -/
theorem replace_lens_nested :
    let c : Node := .condition { field := .text "intent.score", operator := .text "gte" }
    let d : Node := .condition { field := .text "intent.topics", operator := .text "matchAny" }
    let e : Expression := { children := [.group .or [c, d] true, d] }
    let t : Expression := { children := [.group .or [.group .and [] true, d] true, d] }
    e.at? [0, 0] = .ok c ∧ e.replace [0, 0] (.group .and [] true) = .ok t ∧
      e.replace [0, 0] c = .ok e ∧ t.replace [0, 0] d = e.replace [0, 0] d ∧
      t.at? [0, 2] = e.at? [0, 2] := by
  intro c d e t
  have hm : e.at? [0, 0] = .ok c := rfl
  obtain ⟨t', ht', -, hself, htwice, hsame⟩ :=
    replace_lens (n := .group .and [] true) hm nofun
  obtain rfl : t = t' := Except.ok.inj ht'
  exact ⟨hm, ht', hself, htwice d, hsame.apart _ (by decide) (by decide)⟩

end Expression

end Cohort
