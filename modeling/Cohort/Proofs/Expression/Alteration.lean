import Cohort.Proofs.Expression.Paths
import Mathlib.Data.List.Induction

/-!
# Alterations

An edit rebuilds the groups on the way to a node.  Seen from the root it is an
alteration, a function that is applied at the end of a path, and a path is a row
of steps into children.  Alterations compose along a path and at its end, and
they commute at paths that part.  What an edit changes, and what it leaves as it
is, follows from these laws without another look at how groups are rebuilt.
-/

namespace Cohort

namespace Node

/-- The children with a function applied to the one with an index, if there is one. -/
def alterChild (f : Node → Node) (i : Int) (cs : List Node) : List Node :=
  if 0 ≤ i then cs.modify i.toNat f else cs

/-- A node with other children, if it is a group. -/
def onChildren (f : List Node → List Node) : Node → Node
  | group op cs negated => group op (f cs) negated
  | condition c => condition c

/-- A tree with a function applied to the node at the end of a path, if there is one. -/
def alter (f : Node → Node) : Path → Node → Node
  | [] => f
  | i :: p => onChildren (alterChild (alter f p) i)

variable {f g : Node → Node} {n m : Node} {cs : List Node} {i j : Int} {p q : Path}

/-! ## Children -/

/-- A child is altered just if it has the index. -/
theorem child?_alterChild (f : Node → Node) (i j : Int) (cs : List Node) :
    child? (alterChild f i cs) j = (child? cs j).map fun n => if i = j then f n else n := by
  unfold child? alterChild
  by_cases hj : 0 ≤ j
  · by_cases hi : 0 ≤ i
    · have hij : i.toNat = j.toNat ↔ i = j := by omega
      simp [hi, hj, List.getElem?_modify, hij]
    · have hij : i ≠ j := by omega
      simp [hi, hj, hij]
  · simp [hj]

theorem alterChild_alterChild (f g : Node → Node) (i : Int) (cs : List Node) :
    alterChild g i (alterChild f i cs) = alterChild (g ∘ f) i cs := by
  unfold alterChild
  split
  · exact List.modify_modify_eq f g _ cs
  · rfl

/-- Different children can be altered in either order. -/
theorem alterChild_comm (h : i ≠ j) (f g : Node → Node) (cs : List Node) :
    alterChild f i (alterChild g j cs) = alterChild g j (alterChild f i cs) := by
  unfold alterChild
  by_cases hi : 0 ≤ i
  · by_cases hj : 0 ≤ j
    · have hne : j.toNat ≠ i.toNat := by omega
      simp only [if_pos hi, if_pos hj]
      exact List.modify_modify_ne g f cs hne
    · simp only [if_neg hj]
  · simp only [if_neg hi]

@[simp] theorem alterChild_id (i : Int) (cs : List Node) : alterChild id i cs = cs := by
  unfold alterChild
  split
  · exact List.modify_id _ cs
  · rfl

@[simp] theorem length_alterChild (f : Node → Node) (i : Int) (cs : List Node) :
    (alterChild f i cs).length = cs.length := by
  unfold alterChild
  split
  · exact List.length_modify ..
  · rfl

/-- Only what a function makes of the child is seen. -/
theorem alterChild_eq_place (h : child? cs i = some n) (f : Node → Node) :
    alterChild f i cs = place cs i (some (f n)) := by
  obtain ⟨k, rfl, hk⟩ := exists_natCast_of_child? h
  rw [alterChild, if_pos (Int.natCast_nonneg k), place, List.modify_eq_set_getElem?,
    Int.toNat_natCast, hk]
  rfl

/-! ## Laws -/

@[simp] theorem onChildren_onChildren (f g : List Node → List Node) (n : Node) :
    onChildren g (onChildren f n) = onChildren (g ∘ f) n := by
  cases n <;> rfl

/-- Altering below a path is altering the node at the path below it. -/
theorem alter_append (f : Node → Node) (p q : Path) : alter f (p ++ q) = alter (alter f q) p := by
  induction p with
  | nil => rfl
  | cons i p ih => rw [List.cons_append, alter, alter, ih]

/-- Two alterations at one path are one. -/
theorem alter_alter (f g : Node → Node) (p : Path) (n : Node) :
    alter g p (alter f p n) = alter (g ∘ f) p n := by
  induction p generalizing n with
  | nil => rfl
  | cons i p ih =>
    have hcomp : alter g p ∘ alter f p = alter (g ∘ f) p := funext ih
    rw [alter, alter, alter, onChildren_onChildren, ← hcomp]
    congr 1
    funext cs
    exact alterChild_alterChild _ _ i cs

@[simp] theorem alter_id (p : Path) (n : Node) : alter id p n = n := by
  induction p generalizing n with
  | nil => rfl
  | cons i p ih =>
    have hid : alter id p = id := funext ih
    cases n with
    | condition c => rfl
    | group op cs negated => rw [alter, hid, onChildren, alterChild_id]

/-- Only what a function makes of the node at the end of the path is seen. -/
theorem alter_congr (h : Leads n p m) (hfg : f m = g m) : alter f p n = alter g p n := by
  induction h with
  | here n => exact hfg
  | down hn _ ih =>
    rw [alter, alter, onChildren, onChildren, alterChild_eq_place hn, alterChild_eq_place hn,
      ih hfg]

/-- An alteration that does nothing at the end of the path does nothing. -/
theorem alter_eq_self (h : Leads n p m) (hf : f m = m) : alter f p n = n := by
  rw [alter_congr (g := id) h hf, alter_id]

/-- Alterations below two children commute, if those below one child do. -/
theorem alter_comm_cons (h : i = j → ∀ n, alter f p (alter g q n) = alter g q (alter f p n))
    (n : Node) :
    alter f (i :: p) (alter g (j :: q) n) = alter g (j :: q) (alter f (i :: p) n) := by
  rw [alter, alter, onChildren_onChildren, onChildren_onChildren]
  congr 1
  funext cs
  by_cases hij : i = j
  · subst hij
    have hcomp : alter f p ∘ alter g q = alter g q ∘ alter f p := funext (h rfl)
    rw [Function.comp_apply, Function.comp_apply, alterChild_alterChild, alterChild_alterChild,
      hcomp]
  · exact alterChild_comm hij _ _ cs

/-- At paths that part alterations commute. -/
theorem alter_comm (hpq : ¬p <+: q) (hqp : ¬q <+: p) (f g : Node → Node) (n : Node) :
    alter f p (alter g q n) = alter g q (alter f p n) := by
  induction p generalizing q n with
  | nil => exact absurd List.nil_prefix hpq
  | cons i p ih =>
    cases q with
    | nil => exact absurd List.nil_prefix hqp
    | cons j q =>
      refine alter_comm_cons ?_ n
      rintro rfl n
      rw [List.cons_prefix_cons, not_and] at hpq hqp
      exact ih (hpq rfl) (hqp rfl) n

/-! ## Ways through an altered tree -/

/-- A path is walked in two parts. -/
theorem leads_append_iff {x : Node} : Leads n (p ++ q) x ↔ ∃ m, Leads n p m ∧ Leads m q x := by
  constructor
  · intro h
    induction p generalizing n with
    | nil => exact ⟨n, .here n, h⟩
    | cons i p ih =>
      cases h with
      | down hn h =>
        obtain ⟨m, hm, hx⟩ := ih h
        exact ⟨m, .down hn hm, hx⟩
  · rintro ⟨m, hm, hx⟩
    induction hm with
    | here => exact hx
    | down hn _ ih => exact .down hn (ih hx)

/-- A walk goes on from the node that its first steps lead to. -/
theorem walk_append (h : Leads n p m) (taken depth : Nat) (q : Path) :
    walk taken depth n (p ++ q) = walk taken (depth + p.length) m q := by
  induction h generalizing depth with
  | here n => rfl
  | @down op cs negated i p n m hn _ ih =>
    rw [List.cons_append, walk, hn, List.length_cons, Nat.add_comm p.length, ← Nat.add_assoc]
    exact ih (depth + 1)

/-- What a path leads to after an alteration there is the altered node. -/
theorem Leads.alter (h : Leads n p m) (f : Node → Node) : Leads (alter f p n) p (f m) := by
  induction h with
  | here n => exact .here _
  | down hn _ ih =>
    refine .down ?_ ih
    rw [child?_alterChild, hn, Option.map_some, if_pos rfl]

/-- Above the end of the path there is what was there, altered along the rest of the path. -/
theorem Leads.alter_above (h : Leads n p m) (f : Node → Node) (q : Path) :
    Leads (Node.alter f (p ++ q) n) p (Node.alter f q m) := by
  rw [alter_append]
  exact h.alter _

/-- A walk that parts from a path does not see what is altered at its end. -/
theorem walk_alter_of_apart (hpq : ¬p <+: q) (hqp : ¬q <+: p) (f : Node → Node) (n : Node)
    (taken depth : Nat) : walk taken depth (alter f p n) q = walk taken depth n q := by
  induction p generalizing q n depth with
  | nil => exact absurd List.nil_prefix hpq
  | cons i p ih =>
    cases q with
    | nil => exact absurd List.nil_prefix hqp
    | cons j q =>
      cases n with
      | condition c => rfl
      | group op cs negated =>
        rw [alter, onChildren, walk, walk, child?_alterChild]
        cases hn : child? cs j with
        | none => rfl
        | some n =>
          by_cases hij : i = j
          · subst hij
            rw [List.cons_prefix_cons, not_and] at hpq hqp
            rw [Option.map_some, if_pos rfl]
            exact ih (hpq rfl) (hqp rfl) n (depth + 1)
          · rw [Option.map_some, if_neg hij]

/-- Paths of which neither starts with the other do not see each other's alterations. -/
theorem leads_alter_of_apart (hpq : ¬p <+: q) (hqp : ¬q <+: p) (f : Node → Node) (n m : Node) :
    Leads (alter f p n) q m ↔ Leads n q m := by
  rw [← @walk_eq_ok_iff 0 0, ← @walk_eq_ok_iff 0 0, walk_alter_of_apart hpq hqp]

/-- Altering below a node leaves its kind as it is. -/
theorem isGroup_alter_cons (f : Node → Node) (i : Int) (p : Path) (n : Node) :
    (alter f (i :: p) n).isGroup = n.isGroup := by
  cases n <;> rfl

/-! ## Edits as alterations -/

/-- A change of a child that succeeds is an alteration of the group that has the child. -/
theorem modify_eq_alter {change : Change} {op : Connective} {negated : Bool} {o : Option Node}
    (hgroup : Leads n p (group op cs negated)) (hm : child? cs j = some m) (ho : change m = .ok o)
    {q : Path} (hq : i :: q = p ++ [j]) (taken depth : Nat) :
    modify change taken depth n i q =
      .ok (alter (onChildren fun cs => place cs j o) p n) := by
  induction p generalizing n i q depth with
  | nil =>
    cases hgroup
    cases hq
    rw [modify, hm]
    simp only [ho]
    rfl
  | cons k p ih =>
    rw [List.cons_append, List.cons_eq_cons] at hq
    obtain ⟨rfl, rfl⟩ := hq
    cases hgroup with
    | @down _ _ _ _ _ n _ hn hgroup =>
      -- the path does not end here, so the change is made below the child
      obtain ⟨k, q, hrest⟩ := List.exists_cons_of_ne_nil (List.concat_ne_nil j p)
      rw [hrest, modify, hn]
      dsimp only
      rw [ih hgroup hrest.symm (depth + 1), alter, onChildren, alterChild_eq_place hn]
      rfl

end Node

namespace Expression

open Node

variable {e t : Expression} {p : Path} {m : Node} {f : Node → Node}

def ofRoot (n : Node) : Except EditFault Expression :=
  match ofNode? n with
  | some e => .ok e
  | none => .error .rootNotGroup

/-- The expression with a node as its root, if it exists, has that node as its root. -/
theorem ofRoot_eq_ok_iff {n : Node} : ofRoot n = .ok t ↔ t.toNode = n := by
  cases n with
  | condition c => exact ⟨nofun, nofun⟩
  | group op cs negated =>
    constructor
    · intro h
      cases h
      rfl
    · intro h
      cases h
      rfl

@[simp] theorem ofRoot_toNode (e : Expression) : ofRoot e.toNode = .ok e := rfl

theorem exists_ofRoot {n : Node} (h : n.isGroup = true) : ∃ t, ofRoot n = .ok t := by
  cases n with
  | condition c => cases h
  | group op cs negated => exact ⟨_, rfl⟩

/-- An edit of a child alters the group that has the child. -/
theorem edit_child {change : Change} {op : Connective} {cs : List Node} {negated : Bool} {i : Int}
    {o : Option Node} (hgroup : e.at? p = .ok (.group op cs negated)) (hm : child? cs i = some m)
    (ho : change m = .ok o) :
    e.edit (p ++ [i]) change =
      ofRoot (alter (onChildren fun cs => place cs i o) p e.toNode) := by
  rw [at?_eq_ok_iff] at hgroup
  obtain ⟨j, q, hpath⟩ := List.exists_cons_of_ne_nil (List.concat_ne_nil i p)
  rw [hpath]
  dsimp only [edit]
  rw [modify_eq_alter hgroup hm ho hpath.symm]
  rfl

/-- An edit that leaves something at its path alters what is there. -/
theorem edit_eq_alter {change : Change} (hm : e.at? p = .ok m) (hf : change m = .ok (some (f m))) :
    e.edit p change = ofRoot (alter f p e.toNode) := by
  cases p using List.reverseRecOn with
  | nil =>
    rw [at?_eq_ok_iff] at hm
    cases hm
    simp only [edit, hf]
    rfl
  | append_singleton p i =>
    have hm' := at?_eq_ok_iff.mp hm
    obtain ⟨x, hx, hlast⟩ := leads_append_iff.mp hm'
    cases hlast with
    | @down op cs negated _ _ _ _ hchild hhere =>
      cases hhere
      rw [edit_child (at?_eq_ok_iff.mpr hx) hchild hf, alter_append]
      congr 1
      refine alter_congr hx ?_
      rw [alter, onChildren, onChildren, alterChild_eq_place hchild, alter]

end Expression

end Cohort
