import Cohort.Expression.Basic

/-!
# The leaves of a tree

The conditions of a tree in order, without the ways to them, and the tree that
grows when a node is grafted onto each leaf.
-/

namespace Cohort

namespace Node

def leaves (n : Node) : List Condition := n.conditions.map (·.2)

@[simp] theorem leaves_condition (c : Condition) : (condition c).leaves = [c] := by
  simp [leaves, conditions]

theorem map_snd_conditionsFrom (i : Nat) (cs : List Node) :
    (conditionsFrom i cs).map (·.2) = cs.flatMap leaves := by
  induction cs generalizing i with
  | nil => simp [conditionsFrom]
  | cons n ns ih => simp [conditionsFrom, ih, leaves, Function.comp_def]

@[simp] theorem leaves_group (op : Connective) (cs : List Node) (negated : Bool) :
    (group op cs negated).leaves = cs.flatMap leaves := by
  rw [leaves, conditions, map_snd_conditionsFrom]

mutual

/-- The tree with a node in the place of each condition. -/
def graft (f : Condition → Node) : Node → Node
  | condition c => f c
  | group op cs negated => group op (graftAll f cs) negated

def graftAll (f : Condition → Node) : List Node → List Node
  | [] => []
  | n :: ns => n.graft f :: graftAll f ns

end

mutual

/-- The conditions of a grafted tree are those of what is put in the place of each. -/
theorem leaves_graft (f : Condition → Node) (n : Node) :
    (n.graft f).leaves = n.leaves.flatMap fun c => (f c).leaves :=
  match n with
  | .condition c => by simp [graft]
  | .group op cs negated => by
    rw [graft, leaves_group, leaves_group, leaves_graftAll]

theorem leaves_graftAll (f : Condition → Node) (ns : List Node) :
    (graftAll f ns).flatMap leaves = (ns.flatMap leaves).flatMap fun c => (f c).leaves :=
  match ns with
  | [] => rfl
  | n :: ns => by
    rw [graftAll, List.flatMap_cons, List.flatMap_cons, List.flatMap_append, leaves_graft,
      leaves_graftAll]

end

mutual

/-- What is grafted onto other conditions makes no difference. -/
theorem graft_congr {f g : Condition → Node} (n : Node) (h : ∀ c ∈ n.leaves, f c = g c) :
    n.graft f = n.graft g :=
  match n with
  | .condition c => by
    rw [leaves_condition, List.forall_mem_singleton] at h
    rw [graft, graft, h]
  | .group op cs negated => by
    rw [leaves_group] at h
    rw [graft, graft, graftAll_congr cs h]

theorem graftAll_congr {f g : Condition → Node} (ns : List Node)
    (h : ∀ c ∈ ns.flatMap leaves, f c = g c) : graftAll f ns = graftAll g ns :=
  match ns with
  | [] => rfl
  | n :: ns => by
    rw [List.flatMap_cons, List.forall_mem_append] at h
    rw [graftAll, graftAll, graft_congr n h.1, graftAll_congr ns h.2]

end

mutual

/-- Grafting each condition onto itself changes nothing. -/
theorem graft_condition (n : Node) : n.graft condition = n :=
  match n with
  | .condition c => by rw [graft]
  | .group op cs negated => by rw [graft, graftAll_condition cs]

theorem graftAll_condition (ns : List Node) : graftAll condition ns = ns :=
  match ns with
  | [] => rfl
  | n :: ns => by rw [graftAll, graft_condition n, graftAll_condition ns]

end

end Node

namespace Expression

def leaves (e : Expression) : List Condition := e.toNode.leaves

def alone (c : Condition) : Expression where
  children := [.condition c]

/-- The expression with a node in the place of each condition. -/
def graft (f : Condition → Node) (e : Expression) : Expression :=
  { e with children := Node.graftAll f e.children }

@[simp] theorem leaves_alone (c : Condition) : (alone c).leaves = [c] := by
  simp [leaves, toNode, alone]

theorem toNode_graft (f : Condition → Node) (e : Expression) :
    (e.graft f).toNode = e.toNode.graft f := by
  simp [toNode, graft, Node.graft]

/-- A graft depends on what is put in the place of the conditions alone. -/
theorem graft_congr {f g : Condition → Node} {e : Expression} (h : ∀ c ∈ e.leaves, f c = g c) :
    e.graft f = e.graft g := by
  rw [leaves, toNode, Node.leaves_group] at h
  rw [graft, graft, Node.graftAll_congr e.children h]

/-- A graft that puts each condition in its own place changes nothing. -/
theorem graft_eq_self {f : Condition → Node} {e : Expression}
    (h : ∀ c ∈ e.leaves, f c = .condition c) : e.graft f = e := by
  have hself : e.graft f = e.graft .condition := graft_congr h
  rw [hself, graft, Node.graftAll_condition]

theorem leaves_graft (f : Condition → Node) (e : Expression) :
    (e.graft f).leaves = e.leaves.flatMap fun c => (f c).leaves := by
  rw [leaves, toNode_graft, Node.leaves_graft, leaves]

end Expression

end Cohort
