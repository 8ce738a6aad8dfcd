import Cohort.Proofs.Expression.Lens
import Mathlib.Data.List.InsertIdx

/-!
# Inserted and removed siblings

Inserting a child and removing a child alter the group above it, each undoes
what the other one did at the same index, and only the later siblings change
their numbers.
-/

namespace Cohort

namespace Node

variable {cs : List Node} {n m : Node} {i : Nat} {j : Int}

/-- Children before the new one keep their indices. -/
theorem child?_insertIdx_of_lt (h : j < i) : child? (cs.insertIdx i n) j = child? cs j := by
  unfold child?
  split
  · exact List.getElem?_insertIdx_of_lt (by omega)
  · rfl

/-- Children behind the new one move by one. -/
theorem child?_insertIdx_of_gt (h : (i : Int) < j) :
    child? (cs.insertIdx i n) j = child? cs (j - 1) := by
  unfold child?
  rw [if_pos (by omega), if_pos (by omega), List.getElem?_insertIdx_of_gt (by omega)]
  congr 1
  omega

theorem child?_insertIdx_self (h : i ≤ cs.length) : child? (cs.insertIdx i n) i = some n := by
  rw [child?_natCast, List.getElem?_insertIdx_self, if_pos h]

/-- A child that was removed is put back by inserting it where it was. -/
theorem insertIdx_eraseIdx_of_child? (h : child? cs i = some m) :
    (cs.eraseIdx i).insertIdx i m = cs := by
  rw [child?_natCast] at h
  obtain ⟨hi, rfl⟩ := List.getElem?_eq_some_iff.mp h
  exact List.insertIdx_eraseIdx_getElem hi

end Node

namespace Expression

open Node

variable {e t : Expression} {p : Path} {m n : Node} {op : Connective} {cs : List Node}
  {negated : Bool} {i : Nat}

/-- A walk below a node goes on from it. -/
theorem at?_append (hm : e.at? p = .ok m) (q : Path) :
    e.at? (p ++ q) = walk (p ++ q).length p.length m q := by
  have hwalk := walk_append (at?_eq_ok_iff.mp hm) (p ++ q).length 0 q
  rwa [Nat.zero_add] at hwalk

/-- Below a group a path leads where the child with its next index leads. -/
theorem at?_append_congr {cs' : List Node} (hgroup : e.at? p = .ok (.group op cs negated))
    (hgroup' : t.at? p = .ok (.group op cs' negated)) {j k : Int}
    (hchild : child? cs' j = child? cs k) (s : Path) :
    t.at? (p ++ j :: s) = e.at? (p ++ k :: s) := by
  rw [at?_append hgroup, at?_append hgroup', walk, walk, hchild, List.length_append,
    List.length_append]
  rfl

/-- Inserting alters the children of the group at the path. -/
theorem insert_eq_alter (hgroup : e.at? p = .ok (.group op cs negated)) (hi : i ≤ cs.length)
    (n : Node) :
    e.insert p n (some i) = ofRoot (alter (onChildren (·.insertIdx i n)) p e.toNode) := by
  refine edit_eq_alter hgroup ?_
  have hrange : (0 : Int) ≤ i ∧ (i : Int) ≤ cs.length := by omega
  simp only [insertChild, if_pos hrange, Int.toNat_natCast]
  rfl

/-- Removing a child alters the children of its group. -/
theorem remove_eq_alter (hgroup : e.at? p = .ok (.group op cs negated))
    (hm : child? cs i = some m) :
    e.remove (p ++ [(i : Int)]) = ofRoot (alter (onChildren (·.eraseIdx i)) p e.toNode) := by
  have hne : (p ++ [(i : Int)]).isEmpty = false := by simp
  rw [remove, hne, if_neg Bool.false_ne_true]
  have hedit : e.edit (p ++ [(i : Int)]) (fun _ => .ok none) =
      ofRoot (alter (onChildren fun cs => place cs i none) p e.toNode) := edit_child hgroup hm rfl
  exact hedit

/-- Without an index a node is inserted behind all children. -/
theorem insert_none (hgroup : e.at? p = .ok (.group op cs negated)) (n : Node) :
    e.insert p n = e.insert p n (some cs.length) := by
  rw [insert_eq_alter hgroup (Nat.le_refl _)]
  refine edit_eq_alter hgroup ?_
  rw [onChildren, List.insertIdx_length_self]
  rfl

theorem at?_child (hgroup : e.at? p = .ok (.group op cs negated)) (hm : child? cs i = some m) :
    e.at? (p ++ [(i : Int)]) = .ok m := by
  rw [at?_append hgroup, walk, hm]
  cases m <;> rfl

/-- An inserted child is found under its index, among the children there were. -/
theorem at?_of_insert (hgroup : e.at? p = .ok (.group op cs negated)) (hi : i ≤ cs.length)
    (ht : e.insert p n (some i) = .ok t) :
    t.at? p = .ok (.group op (cs.insertIdx i n) negated) ∧ t.at? (p ++ [(i : Int)]) = .ok n := by
  rw [insert_eq_alter hgroup hi, ofRoot_eq_ok_iff] at ht
  have hgroup' : t.at? p = .ok (.group op (cs.insertIdx i n) negated) := at?_of_alter hgroup ht
  exact ⟨hgroup', at?_child hgroup' (child?_insertIdx_self hi)⟩

/-- Removing a child that was inserted undoes the insertion. -/
theorem remove_of_insert (hgroup : e.at? p = .ok (.group op cs negated)) (hi : i ≤ cs.length)
    (ht : e.insert p n (some i) = .ok t) : t.remove (p ++ [(i : Int)]) = .ok e := by
  obtain ⟨hgroup', -⟩ := at?_of_insert hgroup hi ht
  rw [insert_eq_alter hgroup hi, ofRoot_eq_ok_iff] at ht
  rw [remove_eq_alter hgroup' (child?_insertIdx_self hi), ht, alter_alter,
    alter_eq_self (at?_eq_ok_iff.mp hgroup), ofRoot_toNode]
  rw [Function.comp_apply, onChildren, onChildren, List.eraseIdx_insertIdx_self]

/-- Inserting a child that was removed undoes the removal. -/
theorem insert_of_remove (hgroup : e.at? p = .ok (.group op cs negated))
    (hm : child? cs i = some m) (ht : e.remove (p ++ [(i : Int)]) = .ok t) :
    t.insert p m (some i) = .ok e := by
  rw [remove_eq_alter hgroup hm, ofRoot_eq_ok_iff] at ht
  have hgroup' : t.at? p = .ok (.group op (cs.eraseIdx i) negated) := at?_of_alter hgroup ht
  have hi : i ≤ (cs.eraseIdx i).length := by
    have hle := List.le_length_eraseIdx cs i
    rw [child?_natCast] at hm
    obtain ⟨hlt, -⟩ := List.getElem?_eq_some_iff.mp hm
    omega
  rw [insert_eq_alter hgroup' hi, ht, alter_alter, alter_eq_self (at?_eq_ok_iff.mp hgroup),
    ofRoot_toNode]
  rw [Function.comp_apply, onChildren, onChildren, insertIdx_eraseIdx_of_child? hm]

/-- Inserting and removing a child undo each other.  What was inserted is found under its index,
the siblings behind it under the next one, and all around their group is as it was. -/
theorem insert_remove_inverse (hgroup : e.at? p = .ok (.group op cs negated)) :
    (∀ n, e.insert p n = e.insert p n (some cs.length)) ∧
    (∀ n (i : Nat), i ≤ cs.length → ∃ t, e.insert p n (some i) = .ok t ∧
      t.remove (p ++ [(i : Int)]) = .ok e ∧
      t.at? (p ++ [(i : Int)]) = .ok n ∧
      (∀ j s, j < (i : Int) → t.at? (p ++ j :: s) = e.at? (p ++ j :: s)) ∧
      (∀ j s, (i : Int) < j → t.at? (p ++ j :: s) = e.at? (p ++ (j - 1) :: s)) ∧
      SameAround p e t) ∧
    ∀ i : Nat, i < cs.length → ∃ m t, e.at? (p ++ [(i : Int)]) = .ok m ∧
      e.remove (p ++ [(i : Int)]) = .ok t ∧ t.insert p m (some i) = .ok e := by
  refine ⟨insert_none hgroup, ?_, ?_⟩
  · intro n i hi
    obtain ⟨t, ht⟩ : ∃ t, e.insert p n (some i) = .ok t :=
      exists_insert_iff.mpr ⟨op, cs, negated, hgroup, by simpa using hi⟩
    obtain ⟨hgroup', hn⟩ := at?_of_insert hgroup hi ht
    refine ⟨t, ht, remove_of_insert hgroup hi ht, hn, ?_, ?_, ?_⟩
    · intro j s hj
      exact at?_append_congr hgroup hgroup' (child?_insertIdx_of_lt hj) s
    · intro j s hj
      exact at?_append_congr hgroup hgroup' (child?_insertIdx_of_gt hj) s
    · rw [insert_eq_alter hgroup hi, ofRoot_eq_ok_iff] at ht
      exact sameAround_of_alter hgroup ht
  · intro i hi
    have hchild : child? cs i = some cs[i] := by rw [child?_natCast, List.getElem?_eq_getElem hi]
    have hm := at?_child hgroup hchild
    obtain ⟨t, ht⟩ := exists_remove_iff.mpr ⟨⟨_, hm⟩, List.concat_ne_nil (i : Int) p⟩
    exact ⟨cs[i], t, hm, ht, insert_of_remove hgroup hchild ht⟩

/-- A group between the two conditions of a negated group. -/
theorem insert_remove_inverse_nested :
    let c : Node := .condition { field := .text "intent.score", operator := .text "gte" }
    let d : Node := .condition { field := .text "intent.topics", operator := .text "matchAny" }
    let e : Expression := { children := [c, .group .or [c, d] true] }
    let t : Expression := { children := [c, .group .or [c, .group .and [] false, d] true] }
    e.at? [1] = .ok (.group .or [c, d] true) ∧
      e.insert [1] (.group .and [] false) (some 1) = .ok t ∧
      t.remove [1, 1] = .ok e ∧ t.at? [1, 2] = .ok d ∧ t.at? [0] = e.at? [0] := by
  intro c d e t
  have hgroup : e.at? [1] = .ok (.group .or [c, d] true) := rfl
  obtain ⟨-, hinsert, -⟩ := insert_remove_inverse hgroup
  obtain ⟨t', ht', hremove, -, -, hshift, hsame⟩ := hinsert (.group .and [] false) 1 (by decide)
  obtain rfl : t = t' := Except.ok.inj ht'
  exact ⟨hgroup, ht', hremove, hshift 2 [] (by decide), hsame.apart _ (by decide) (by decide)⟩

/-- The groups above the one that is inserted into are changed with it, although no path to one of
them leads through that group. -/
theorem insert_changes_above :
    let e : Expression := { children := [.group .or [.group .and [] false] true] }
    let t : Expression := {
      children := [.group .or [.group .and [.group .or [] false] false] true] }
    e.at? [0, 0] = .ok (.group .and [] false) ∧
      e.insert [0, 0] (.group .or [] false) (some 0) = .ok t ∧
      ¬([0, 0] : Path) <+: [0] ∧ t.at? [0] ≠ e.at? [0] := by
  refine ⟨rfl, rfl, by decide, ?_⟩
  intro h
  cases h

end Expression

end Cohort
