import Cohort.Proofs.Expression.Editing

/-!
# The ways to conditions

The conditions of a tree are listed with the ways to them.  These are just the
ways that lead to conditions, in lexicographic order, each of them once.  An
edit changes the list at and below its path alone, but for one thing: once a
node is removed, the ways through its later siblings are renumbered.
-/

namespace Cohort

/-- The way to a node once the node at a path has been removed: what stood behind that node among
its siblings has moved up by one place. -/
def Path.closeGap : Path → Path → Path
  | [i], j :: q => if i < j then (j - 1) :: q else j :: q
  | i :: p, j :: q => if i = j then j :: closeGap p q else j :: q
  | [], q => q
  | _, [] => []

namespace Path

variable {i j k : Int} {p q : Path}

theorem closeGap_cons_self : closeGap (i :: j :: p) (i :: q) = i :: closeGap (j :: p) q := by
  rw [closeGap, if_pos rfl]
  nofun

theorem closeGap_cons_of_ne (h : i ≠ k) : closeGap (i :: j :: p) (k :: q) = k :: q := by
  rw [closeGap, if_neg h]
  nofun

theorem closeGap_singleton_of_lt (h : i < k) : closeGap [i] (k :: q) = (k - 1) :: q := by
  rw [closeGap, if_pos h]

/-- A way through an earlier sibling stays as it is. -/
theorem closeGap_of_lt (h : k < i) : closeGap (i :: p) (k :: q) = k :: q := by
  cases p with
  | nil => rw [closeGap, if_neg (by omega)]
  | cons j p => exact closeGap_cons_of_ne (by omega)

end Path

namespace Node

open Cohort.Path (closeGap)

/-! ## Lists of conditions -/

/-- Conditions with the ways to them, seen from the start of a path to where they were seen from. -/
def under (p : Path) (es : List (Path × Condition)) : List (Path × Condition) :=
  es.map fun e => (p ++ e.1, e.2)

/-- Conditions with the ways to them, once the node at a path has been removed. -/
def closeUp (p : Path) (es : List (Path × Condition)) : List (Path × Condition) :=
  es.map fun e => (closeGap p e.1, e.2)

section Lists

variable {p q : Path} {es fs : List (Path × Condition)} {i : Nat} {n : Node} {ns ms : List Node}

theorem under_append_path (p q : Path) (es : List (Path × Condition)) :
    under (p ++ q) es = under p (under q es) := by
  simp [under]

@[simp] theorem under_append (p : Path) (es fs : List (Path × Condition)) :
    under p (es ++ fs) = under p es ++ under p fs := List.map_append

@[simp] theorem closeUp_append (p : Path) (es fs : List (Path × Condition)) :
    closeUp p (es ++ fs) = closeUp p es ++ closeUp p fs := List.map_append

theorem mem_under_iff {e : Path × Condition} :
    e ∈ under p es ↔ ∃ q, e.1 = p ++ q ∧ (q, e.2) ∈ es := by
  obtain ⟨r, c⟩ := e
  simp only [under, List.mem_map, Prod.mk.injEq, Prod.exists]
  constructor
  · rintro ⟨q, c', hmem, rfl, rfl⟩
    exact ⟨q, rfl, hmem⟩
  · rintro ⟨q, rfl, hmem⟩
    exact ⟨q, c, hmem, rfl, rfl⟩

theorem conditionsFrom_cons (i : Nat) (n : Node) (ns : List Node) :
    conditionsFrom i (n :: ns) = under [(i : Int)] n.conditions ++ conditionsFrom (i + 1) ns := by
  rw [conditionsFrom]
  rfl

theorem conditionsFrom_append (i : Nat) (ns ms : List Node) :
    conditionsFrom i (ns ++ ms) = conditionsFrom i ns ++ conditionsFrom (i + ns.length) ms := by
  induction ns generalizing i with
  | nil => rw [List.nil_append, conditionsFrom, List.nil_append, List.length_nil, Nat.add_zero]
  | cons n ns ih =>
    rw [List.cons_append, conditionsFrom_cons, conditionsFrom_cons, ih, List.append_assoc,
      List.length_cons, Nat.add_right_comm, Nat.add_assoc]

/-- The ways to the conditions of nodes start with the numbers of the nodes. -/
theorem exists_of_mem_conditionsFrom {e : Path × Condition} (h : e ∈ conditionsFrom i ns) :
    ∃ (k : Nat) (q : Path), e.1 = (k : Int) :: q ∧ i ≤ k ∧ k < i + ns.length := by
  induction ns generalizing i with
  | nil =>
    rw [conditionsFrom] at h
    cases h
  | cons n ns ih =>
    rw [conditionsFrom_cons, List.mem_append, mem_under_iff] at h
    rcases h with ⟨q, hq, -⟩ | h
    · exact ⟨i, q, hq, Nat.le_refl i, by simp⟩
    · obtain ⟨k, q, hq, hle, hlt⟩ := ih h
      refine ⟨k, q, hq, by omega, ?_⟩
      rw [List.length_cons]
      omega

end Lists

/-! ## The ways that are listed -/

/-- An index from zero on counts from the front. -/
theorem child?_natCast (cs : List Node) (k : Nat) : child? cs (k : Int) = cs[k]? := by
  rw [child?, if_pos (Int.natCast_nonneg k), Int.toNat_natCast]

/-- A child has an index from zero on. -/
theorem exists_natCast_of_child? {cs : List Node} {i : Int} {n : Node} (h : child? cs i = some n) :
    ∃ k : Nat, i = (k : Int) ∧ cs[k]? = some n := by
  have hi : 0 ≤ i := by
    by_contra hi
    rw [child?, if_neg hi] at h
    cases h
  obtain ⟨k, rfl⟩ := Int.eq_ofNat_of_zero_le hi
  exact ⟨k, rfl, by rwa [child?_natCast] at h⟩

mutual

/-- The conditions that are listed are those that the ways lead to. -/
theorem mem_conditions_iff (n : Node) {p : Path} {c : Condition} :
    (p, c) ∈ n.conditions ↔ Leads n p (.condition c) :=
  match n with
  | .condition c' => by
    rw [conditions, List.mem_singleton, Prod.mk.injEq]
    constructor
    · rintro ⟨rfl, rfl⟩
      exact .here _
    · intro h
      cases h
      exact ⟨rfl, rfl⟩
  | .group op cs negated => by
    rw [conditions, mem_conditionsFrom_iff cs 0]
    constructor
    · rintro ⟨k, n, q, hn, rfl, h⟩
      refine .down ?_ h
      rwa [Nat.zero_add, child?_natCast]
    · intro h
      cases h with
      | down hchild h =>
        obtain ⟨k, rfl, hn⟩ := exists_natCast_of_child? hchild
        exact ⟨k, _, _, hn, by rw [Nat.zero_add], h⟩

/-- The conditions below children are those that a path through one of the children leads to. -/
theorem mem_conditionsFrom_iff (ns : List Node) (i : Nat) {p : Path} {c : Condition} :
    (p, c) ∈ conditionsFrom i ns ↔ ∃ (k : Nat) (n : Node) (q : Path),
      ns[k]? = some n ∧ p = ((i + k : Nat) : Int) :: q ∧ Leads n q (.condition c) :=
  match ns with
  | [] => by simp [conditionsFrom]
  | m :: ns => by
    rw [conditionsFrom_cons, List.mem_append, mem_under_iff, mem_conditionsFrom_iff ns (i + 1)]
    constructor
    · rintro (⟨q, hq, h⟩ | ⟨k, n, q, hn, hq, h⟩)
      · exact ⟨0, m, q, rfl, hq, (mem_conditions_iff m).mp h⟩
      · exact ⟨k + 1, n, q, hn, by rw [hq, Nat.add_right_comm, Nat.add_assoc], h⟩
    · rintro ⟨k, n, q, hn, hq, h⟩
      cases k with
      | zero =>
        cases hn
        exact .inl ⟨q, hq, (mem_conditions_iff m).mpr h⟩
      | succ k =>
        exact .inr ⟨k, n, q, hn, by rw [hq, Nat.add_right_comm, Nat.add_assoc], h⟩

end

mutual

/-- The ways are listed in lexicographic order, each of them once. -/
theorem pairwise_conditions (n : Node) : n.conditions.Pairwise fun e f => e.1 < f.1 :=
  match n with
  | .condition c => by
    rw [conditions]
    exact List.pairwise_singleton _ _
  | .group op cs negated => by
    rw [conditions]
    exact pairwise_conditionsFrom cs 0

/-- The conditions below children come in the order of their paths. -/
theorem pairwise_conditionsFrom (ns : List Node) (i : Nat) :
    (conditionsFrom i ns).Pairwise fun e f => e.1 < f.1 :=
  match ns with
  | [] => by
    rw [conditionsFrom]
    exact .nil
  | n :: ns => by
    rw [conditionsFrom_cons, List.pairwise_append]
    refine ⟨?_, pairwise_conditionsFrom ns (i + 1), ?_⟩
    · rw [under, List.pairwise_map]
      refine (pairwise_conditions n).imp fun h => ?_
      exact List.cons_lt_cons_iff.mpr (.inr ⟨rfl, h⟩)
    · intro e he f hf
      obtain ⟨q, hq, -⟩ := mem_under_iff.mp he
      obtain ⟨k, r, hr, hle, -⟩ := exists_of_mem_conditionsFrom hf
      rw [hq, hr]
      exact List.cons_lt_cons_iff.mpr (.inl (by omega))

end

/-! ## The ways after an edit -/

/-- What is listed before and behind a place is not at or below it, and what is listed before it
does not move if the place is given up. -/
structure Surrounds (p : Path) (before behind : List (Path × Condition)) : Prop where
  before_apart : ∀ e ∈ before, ¬p <+: e.1
  behind_apart : ∀ e ∈ behind, ¬p <+: e.1
  before_stays : closeUp p before = before

/-- The conditions of what stands in the place of a node. -/
def conditionsOf (o : Option Node) : List (Path × Condition) := o.toList.flatMap conditions

@[simp] theorem conditionsOf_none : conditionsOf none = [] := rfl

@[simp] theorem conditionsOf_some (n : Node) : conditionsOf (some n) = n.conditions := by
  simp [conditionsOf]

/-- What is listed behind a place, once something or nothing has been put there. -/
def shifted (p : Path) (o : Option Node) (es : List (Path × Condition)) :
    List (Path × Condition) :=
  match o with
  | some _ => es
  | none => closeUp p es

section Shifts

variable {i : Nat} {ns : List Node} {p : Path} {es : List (Path × Condition)}

/-- The conditions behind a removed child move up by one. -/
theorem closeUp_conditionsFrom {j : Nat} (h : j ≤ i) (ns : List Node) :
    closeUp [(j : Int)] (conditionsFrom (i + 1) ns) = conditionsFrom i ns := by
  induction ns generalizing i with
  | nil =>
    rw [conditionsFrom, conditionsFrom]
    rfl
  | cons n ns ih =>
    rw [conditionsFrom_cons, conditionsFrom_cons, closeUp_append, ih (by omega)]
    congr 1
    rw [closeUp, under, under, List.map_map]
    refine List.map_congr_left fun e _ => ?_
    have hgap : closeGap [(j : Int)] (((i + 1 : Nat) : Int) :: e.1) = (i : Int) :: e.1 := by
      rw [Path.closeGap_singleton_of_lt (by omega)]
      congr 1
      omega
    exact Prod.ext hgap rfl

theorem closeUp_eq_self (h : ∀ e ∈ es, closeGap p e.1 = e.1) : closeUp p es = es := by
  rw [closeUp]
  conv_rhs => rw [← List.map_id es]
  exact List.map_congr_left fun e he => Prod.ext (h e he) rfl

/-- Conditions before a gap stay in their places. -/
theorem closeUp_earlier {j : Nat} (h : i + ns.length ≤ j) :
    closeUp ((j : Int) :: p) (conditionsFrom i ns) = conditionsFrom i ns := by
  refine closeUp_eq_self fun e he => ?_
  obtain ⟨k, q, hq, -, hlt⟩ := exists_of_mem_conditionsFrom he
  rw [hq]
  exact Path.closeGap_of_lt (by omega)

/-- Conditions in the children behind stay in their places, if the gap is further down. -/
theorem closeUp_later {j : Nat} (h : j < i) {k : Int} :
    closeUp ((j : Int) :: k :: p) (conditionsFrom i ns) = conditionsFrom i ns := by
  refine closeUp_eq_self fun e he => ?_
  obtain ⟨l, q, hq, hle, -⟩ := exists_of_mem_conditionsFrom he
  rw [hq]
  exact Path.closeGap_cons_of_ne (by omega)

theorem closeUp_under (i j : Int) (p : Path) (es : List (Path × Condition)) :
    closeUp (i :: j :: p) (under [i] es) = under [i] (closeUp (j :: p) es) := by
  rw [closeUp, closeUp, under, under, List.map_map, List.map_map]
  exact List.map_congr_left fun e _ => Prod.ext Path.closeGap_cons_self rfl

theorem not_prefix_of_mem_conditionsFrom {j : Nat} (h : j < i ∨ i + ns.length ≤ j)
    {e : Path × Condition} (he : e ∈ conditionsFrom i ns) : ¬(j : Int) :: p <+: e.1 := by
  obtain ⟨k, q, hq, hle, hlt⟩ := exists_of_mem_conditionsFrom he
  rw [hq, List.cons_prefix_cons]
  rintro ⟨hjk, -⟩
  omega

theorem not_prefix_of_mem_under {i : Int} (h : ∀ e ∈ es, ¬p <+: e.1) {e : Path × Condition}
    (he : e ∈ under [i] es) : ¬i :: p <+: e.1 := by
  obtain ⟨q, hq, hmem⟩ := mem_under_iff.mp he
  rw [hq, List.singleton_append, List.cons_prefix_cons]
  rintro ⟨-, hp⟩
  exact h _ hmem hp

/-- What surrounds a child among its siblings. -/
theorem surrounds_child (first last : List Node) :
    Surrounds [(first.length : Int)] (conditionsFrom 0 first)
      (conditionsFrom (first.length + 1) last) where
  before_apart _ := not_prefix_of_mem_conditionsFrom (.inr (by omega))
  behind_apart _ := not_prefix_of_mem_conditionsFrom (.inl (by omega))
  before_stays := closeUp_earlier (by omega)

/-- What surrounds a place below a child. -/
theorem Surrounds.under_child {j : Int} {before behind : List (Path × Condition)}
    (h : Surrounds (j :: p) before behind) (first last : List Node) :
    Surrounds ((first.length : Int) :: j :: p)
      (conditionsFrom 0 first ++ under [(first.length : Int)] before)
      (under [(first.length : Int)] behind ++ conditionsFrom (first.length + 1) last) where
  before_apart e he := by
    rw [List.mem_append] at he
    rcases he with he | he
    · exact not_prefix_of_mem_conditionsFrom (.inr (by omega)) he
    · exact not_prefix_of_mem_under h.before_apart he
  behind_apart e he := by
    rw [List.mem_append] at he
    rcases he with he | he
    · exact not_prefix_of_mem_under h.behind_apart he
    · exact not_prefix_of_mem_conditionsFrom (.inl (by omega)) he
  before_stays := by
    rw [closeUp_append, closeUp_earlier (by omega), closeUp_under, h.before_stays]

theorem shifted_child (first last : List Node) (o : Option Node) :
    conditionsFrom first.length (o.toList ++ last) =
      under [(first.length : Int)] (conditionsOf o) ++
        shifted [(first.length : Int)] o (conditionsFrom (first.length + 1) last) := by
  cases o with
  | none =>
    rw [Option.toList_none, List.nil_append, conditionsOf_none, shifted,
      closeUp_conditionsFrom (Nat.le_refl _)]
    rfl
  | some n => rw [Option.toList_some, List.singleton_append, conditionsFrom_cons, conditionsOf_some,
      shifted]

theorem shifted_under_child (first last : List Node) (j : Int) (p : Path) (o : Option Node)
    (es : List (Path × Condition)) :
    shifted ((first.length : Int) :: j :: p) o
        (under [(first.length : Int)] es ++ conditionsFrom (first.length + 1) last) =
      under [(first.length : Int)] (shifted (j :: p) o es) ++
        conditionsFrom (first.length + 1) last := by
  cases o with
  | none => rw [shifted, shifted, closeUp_append, closeUp_under, closeUp_later (by omega)]
  | some n => rfl

end Shifts

variable {f : Change} {taken depth : Nat} {n r : Node} {i : Int} {p : Path}

/-- The children around a child are listed around what the child lists. -/
theorem conditionsFrom_middle (first last : List Node) (n : Node) :
    conditionsFrom 0 (first ++ n :: last) = conditionsFrom 0 first ++
      under [(first.length : Int)] n.conditions ++ conditionsFrom (first.length + 1) last := by
  rw [conditionsFrom_append, Nat.zero_add, conditionsFrom_cons, List.append_assoc]

/-- A change that succeeds lists other conditions at and below the end of the path, and what is
listed behind moves up if nothing is left there. -/
theorem exists_conditions_of_modify (h : modify f taken depth n i p = .ok r) :
    ∃ m o before behind, Leads n (i :: p) m ∧ f m = .ok o ∧ Surrounds (i :: p) before behind ∧
      n.conditions = before ++ under (i :: p) m.conditions ++ behind ∧
      r.conditions = before ++ under (i :: p) (conditionsOf o) ++ shifted (i :: p) o behind := by
  induction p generalizing n i r depth with
  | nil =>
    obtain ⟨op, cs, negated, m, o, rfl, hm, ho, rfl⟩ := exists_of_modify_nil h
    obtain ⟨first, last, rfl, rfl, hplace⟩ := exists_split_of_child? hm
    refine ⟨m, o, _, _, .down hm (.here m), ho, surrounds_child first last, ?_, ?_⟩
    · rw [conditions, conditionsFrom_middle]
    · rw [conditions, hplace, List.append_assoc, conditionsFrom_append, Nat.zero_add,
        shifted_child, List.append_assoc]
  | cons j p ih =>
    obtain ⟨op, cs, negated, n, n', rfl, hn, hr, rfl⟩ := exists_of_modify_cons h
    obtain ⟨m, o, before, behind, hleads, ho, hsurrounds, hlist, hlist'⟩ := ih hr
    obtain ⟨first, last, rfl, rfl, hplace⟩ := exists_split_of_child? hn
    have hpath : (first.length : Int) :: j :: p = [(first.length : Int)] ++ (j :: p) := rfl
    refine ⟨m, o, _, _, .down hn hleads, ho, hsurrounds.under_child first last, ?_, ?_⟩
    · rw [conditions, conditionsFrom_middle, hlist, hpath, under_append_path]
      simp only [under_append, List.append_assoc]
    · rw [conditions, hplace, Option.toList_some, List.append_assoc, List.singleton_append,
        conditionsFrom_middle, hlist', shifted_under_child, hpath, under_append_path]
      simp only [under_append, List.append_assoc]

end Node

namespace Expression

open Node

variable {e t : Expression} {p : Path} {f : Change} {c : Condition}

/-- The conditions that are listed are those at the ends of paths. -/
theorem mem_conditions_iff_at? : (p, c) ∈ e.conditions ↔ e.at? p = .ok (.condition c) := by
  rw [at?_eq_ok_iff]
  exact mem_conditions_iff e.toNode

/-- The conditions are listed under the paths at which they are found and under no others, each path
once and in lexicographic order. -/
theorem conditions_enumerate (e : Expression) :
    (∀ p c, (p, c) ∈ e.conditions ↔ e.at? p = .ok (.condition c)) ∧
      (e.conditions.map (·.1)).Nodup ∧ (e.conditions.map (·.1)).Pairwise (· < ·) := by
  have sorted : (e.conditions.map (·.1)).Pairwise (· < ·) :=
    List.pairwise_map.mpr (pairwise_conditions e.toNode)
  refine ⟨fun p c => mem_conditions_iff_at?, ?_, sorted⟩
  refine sorted.imp fun {p q} hlt => ?_
  rintro rfl
  exact List.lt_irrefl p hlt

theorem under_root (es : List (Path × Condition)) : under [] es = es := by
  simp [under]

/-- An edit lists other conditions at and below its path, and what is listed behind moves up if
nothing is left there. -/
theorem exists_conditions_of_edit (h : e.edit p f = .ok t) :
    ∃ m o before behind, e.at? p = .ok m ∧ f m = .ok o ∧ Surrounds p before behind ∧
      e.conditions = before ++ under p m.conditions ++ behind ∧
      t.conditions = before ++ under p (conditionsOf o) ++ shifted p o behind := by
  simp only [at?_eq_ok_iff]
  cases p with
  | nil =>
    obtain ⟨m, o, -, -, hm, ho, hroot, -, -⟩ := exists_of_edit h
    rw [at?_eq_ok_iff] at hm
    cases hm
    refine ⟨e.toNode, o, [], [], .here _, ho, ⟨nofun, nofun, rfl⟩, ?_, ?_⟩
    · rw [under_root, List.nil_append, List.append_nil]
      rfl
    · rw [hroot rfl, conditionsOf_some, under_root, List.nil_append, shifted, List.append_nil]
      rfl
  | cons i p =>
    dsimp only [edit] at h
    cases hr : modify f p.length 0 e.toNode i p with
    | error fault => rw [hr] at h; cases h
    | ok r =>
      rw [hr] at h
      cases r with
      | condition c => cases h
      | group op cs negated =>
        cases h
        exact exists_conditions_of_modify hr

end Expression

end Cohort
