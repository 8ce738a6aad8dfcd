import Cohort.Proofs.Expression.Leaves
import Mathlib.Data.List.Forall2

/-!
# Trees that match

Two trees match in a relation between conditions if they have the same groups,
and each condition of the one is related to the condition of the other that
stands in its place.
-/

namespace Cohort

namespace Node

mutual

/-- Two trees have the same groups, and their conditions are related one by one. -/
def Matches (R : Condition → Condition → Prop) : Node → Node → Prop
  | condition c, condition c' => R c c'
  | group op cs negated, group op' cs' negated' =>
    op = op' ∧ negated = negated' ∧ AllMatch R cs cs'
  | _, _ => False

def AllMatch (R : Condition → Condition → Prop) : List Node → List Node → Prop
  | [], [] => True
  | n :: ns, n' :: ns' => Matches R n n' ∧ AllMatch R ns ns'
  | _, _ => False

end

section Matches

variable {R : Condition → Condition → Prop}

/-- Two conditions stand at the same place and are related. -/
def AtSamePlace (R : Condition → Condition → Prop) (p p' : Path × Condition) : Prop :=
  p.1 = p'.1 ∧ R p.2 p'.2

mutual

/-- Trees that match have their conditions at the same places. -/
theorem Matches.conditions {n n' : Node} (h : Matches R n n') :
    List.Forall₂ (AtSamePlace R) n.conditions n'.conditions :=
  match n, n' with
  | .condition c, .condition c' => by
    rw [Node.conditions, Node.conditions]
    exact .cons ⟨rfl, h⟩ .nil
  | .group op cs negated, .group op' cs' negated' => by
    rw [Matches] at h
    rw [Node.conditions, Node.conditions]
    exact AllMatch.conditionsFrom h.2.2 0

theorem AllMatch.conditionsFrom {ns ns' : List Node} (h : AllMatch R ns ns') (i : Nat) :
    List.Forall₂ (AtSamePlace R) (conditionsFrom i ns) (Node.conditionsFrom i ns') :=
  match ns, ns' with
  | [], [] => .nil
  | n :: ns, n' :: ns' => by
    rw [AllMatch] at h
    rw [Node.conditionsFrom, Node.conditionsFrom]
    refine List.rel_append ?_ (AllMatch.conditionsFrom h.2 (i + 1))
    refine List.rel_map ?_ (Matches.conditions h.1)
    rintro p p' ⟨hpath, hp⟩
    exact ⟨congrArg (List.cons (i : Int)) hpath, hp⟩

end

/-- Trees that match have conditions that are related, one by one. -/
theorem Matches.leaves {n n' : Node} (h : Matches R n n') : List.Forall₂ R n.leaves n'.leaves :=
  List.rel_map (fun _ _ hp => hp.2) h.conditions

mutual

/-- A tree matches the one in which each condition is replaced by a related one. -/
theorem matches_graft {f : Condition → Condition} (n : Node) (h : ∀ c ∈ n.leaves, R c (f c)) :
    Matches R n (n.graft fun c => .condition (f c)) :=
  match n with
  | .condition c => by
    rw [leaves_condition, List.forall_mem_singleton] at h
    rwa [graft, Matches]
  | .group op cs negated => by
    rw [leaves_group] at h
    rw [graft, Matches]
    exact ⟨rfl, rfl, allMatch_graftAll cs h⟩

theorem allMatch_graftAll {f : Condition → Condition} (ns : List Node)
    (h : ∀ c ∈ ns.flatMap leaves, R c (f c)) :
    AllMatch R ns (graftAll (fun c => .condition (f c)) ns) :=
  match ns with
  | [] => trivial
  | n :: ns => by
    rw [List.flatMap_cons, List.forall_mem_append] at h
    rw [graftAll, AllMatch]
    exact ⟨matches_graft n h.1, allMatch_graftAll ns h.2⟩

end

/-- A tree matches itself under a reflexive relation. -/
theorem matches_self (hR : ∀ c, R c c) (n : Node) : n.Matches R n := by
  have h := matches_graft (f := id) n fun c _ => hR c
  have hself : n.graft (fun c => .condition (id c)) = n := graft_condition n
  rwa [hself] at h

end Matches

end Node

end Cohort
