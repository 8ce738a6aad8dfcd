import Cohort.Proofs.Expression.Lens

/-!
# Independent edits

Negations, connectives and the parts of conditions are labels of a tree: an edit
that changes a label leaves the shape of the tree alone, and whether such an
edit can be made depends on the shape alone.  So edits of labels at different
paths come to the same in either order, also where one path leads through the
end of the other.  Edits that replace nodes change the shape, but not where
their paths part.
-/

namespace Cohort

namespace Node

variable {f g : Node → Node} {n m : Node} {p q : Path} {kinds : Bool → Prop}

/-! ## Kinds of nodes -/

/-- A path leads to a node of one of some kinds; there are two kinds, groups and conditions. -/
def HasKindAt (n : Node) (p : Path) (kinds : Bool → Prop) : Prop :=
  ∃ m, Leads n p m ∧ kinds m.isGroup

theorem hasKindAt_nil : n.HasKindAt [] kinds ↔ kinds n.isGroup := by
  constructor
  · rintro ⟨m, hm, hkind⟩
    cases hm
    exact hkind
  · intro hkind
    exact ⟨n, .here n, hkind⟩

theorem hasKindAt_group {op : Connective} {cs : List Node} {negated : Bool} {i : Int} :
    (group op cs negated).HasKindAt (i :: p) kinds ↔
      ∃ m ∈ child? cs i, m.HasKindAt p kinds := by
  constructor
  · rintro ⟨m, hm, hkind⟩
    cases hm with
    | down hn hm => exact ⟨_, hn, m, hm, hkind⟩
  · rintro ⟨n, hn, m, hm, hkind⟩
    exact ⟨m, .down hn hm, hkind⟩

theorem not_hasKindAt_condition {c : Condition} {i : Int} :
    ¬(condition c).HasKindAt (i :: p) kinds := by
  rintro ⟨m, hm, -⟩
  cases hm

/-- An alteration at one path keeps what an edit at another path asks for: the kinds of the root and
of the node at that path. -/
structure Spares (f : Node → Node) (p q : Path) : Prop where
  isGroup_alter : ∀ n, (alter f p n).isGroup = n.isGroup
  hasKindAt_alter : ∀ n kinds, (alter f p n).HasKindAt q kinds ↔ n.HasKindAt q kinds

/-- An alteration spares every path apart from its own. -/
theorem spares_of_apart (hpq : ¬p <+: q) (hqp : ¬q <+: p) (f : Node → Node) : Spares f p q where
  isGroup_alter n := by
    cases p with
    | nil => exact absurd List.nil_prefix hpq
    | cons i p => exact isGroup_alter_cons f i p n
  hasKindAt_alter n kinds := by
    unfold HasKindAt
    simp only [leads_alter_of_apart hpq hqp]

/-! ## Changes of labels -/

/-- A function changes the labels of nodes and leaves their children alone, whatever these are. -/
structure IsRelabelling (f : Node → Node) : Prop where
  condition : ∀ c, ∃ c', f (.condition c) = .condition c'
  group : ∀ op negated, ∃ op' negated', ∀ cs, f (.group op cs negated) = .group op' cs negated'

namespace IsRelabelling

/-- A relabelling does not depend on the children of a node. -/
theorem apply_onChildren (hf : IsRelabelling f) (h : List Node → List Node) (n : Node) :
    f (onChildren h n) = onChildren h (f n) := by
  cases n with
  | condition c =>
    obtain ⟨c', hc⟩ := hf.condition c
    rw [onChildren, hc, onChildren]
  | group op cs negated =>
    obtain ⟨op', negated', hgroup⟩ := hf.group op negated
    rw [onChildren, hgroup, hgroup, onChildren]

theorem isGroup_apply (hf : IsRelabelling f) (n : Node) : (f n).isGroup = n.isGroup := by
  cases n with
  | condition c =>
    obtain ⟨c', hc⟩ := hf.condition c
    rw [hc]
    rfl
  | group op cs negated =>
    obtain ⟨op', negated', hgroup⟩ := hf.group op negated
    rw [hgroup]
    rfl

/-- A relabelling leaves the kinds of nodes as they are, at every path. -/
theorem hasKindAt_apply (hf : IsRelabelling f) (n : Node) :
    (f n).HasKindAt p kinds ↔ n.HasKindAt p kinds := by
  cases p with
  | nil => rw [hasKindAt_nil, hasKindAt_nil, hf.isGroup_apply]
  | cons i p =>
    cases n with
    | condition c =>
      obtain ⟨c', hc⟩ := hf.condition c
      rw [hc]
      exact iff_of_false not_hasKindAt_condition not_hasKindAt_condition
    | group op cs negated =>
      obtain ⟨op', negated', hgroup⟩ := hf.group op negated
      rw [hgroup, hasKindAt_group, hasKindAt_group]

/-- The shape of a tree stays when labels are changed. -/
theorem hasKindAt_alter (hf : IsRelabelling f) (p q : Path) (n : Node) :
    (alter f p n).HasKindAt q kinds ↔ n.HasKindAt q kinds := by
  induction p generalizing q n with
  | nil => exact hf.hasKindAt_apply n
  | cons i p ih =>
    cases q with
    | nil => rw [hasKindAt_nil, hasKindAt_nil, isGroup_alter_cons]
    | cons j q =>
      cases n with
      | condition c => exact Iff.rfl
      | group op cs negated =>
        rw [alter, onChildren, hasKindAt_group, hasKindAt_group, child?_alterChild]
        cases child? cs j with
        | none => simp
        | some n =>
          by_cases hij : i = j
          · simp [hij, ih]
          · simp [hij]

/-- A relabelling spares every path but its own. -/
theorem spares (hf : IsRelabelling f) (p q : Path) : Spares f p q where
  isGroup_alter n := by
    cases p with
    | nil => exact hf.isGroup_apply n
    | cons i p => exact isGroup_alter_cons f i p n
  hasKindAt_alter n _ := hf.hasKindAt_alter p q n

/-- Changes of labels at different paths commute. -/
theorem alter_comm (hf : IsRelabelling f) (hg : IsRelabelling g) (hpq : p ≠ q) (n : Node) :
    alter f p (alter g q n) = alter g q (alter f p n) := by
  induction p generalizing q n with
  | nil =>
    cases q with
    | nil => exact absurd rfl hpq
    | cons j q => exact hf.apply_onChildren _ n
  | cons i p ih =>
    cases q with
    | nil => exact (hg.apply_onChildren _ n).symm
    | cons j q =>
      refine alter_comm_cons ?_ n
      rintro rfl n
      exact ih (fun h => hpq (congrArg (List.cons i) h)) n

end IsRelabelling

def toggled : Node → Node
  | condition c => condition { c with negated := !c.negated }
  | group op cs negated => group op cs !negated

/-- A node with another connective, if it is a group. -/
def withConnective (op : Connective) : Node → Node
  | condition c => condition c
  | group _ cs negated => group op cs negated

/-- A node with some of its parts changed, if it is a condition. -/
def updated (ch : ConditionChange) : Node → Node
  | condition c => condition (ch.apply c)
  | group op cs negated => group op cs negated

theorem isRelabelling_toggled : IsRelabelling toggled :=
  ⟨fun _ => ⟨_, rfl⟩, fun _ _ => ⟨_, _, fun _ => rfl⟩⟩

theorem isRelabelling_withConnective (op : Connective) : IsRelabelling (withConnective op) :=
  ⟨fun _ => ⟨_, rfl⟩, fun _ _ => ⟨_, _, fun _ => rfl⟩⟩

theorem isRelabelling_updated (ch : ConditionChange) : IsRelabelling (updated ch) :=
  ⟨fun _ => ⟨_, rfl⟩, fun _ _ => ⟨_, _, fun _ => rfl⟩⟩

theorem isRelabelling_id : IsRelabelling id :=
  ⟨fun _ => ⟨_, rfl⟩, fun _ _ => ⟨_, _, fun _ => rfl⟩⟩

@[simp] theorem toggled_toggled (n : Node) : n.toggled.toggled = n := by
  cases n <;> simp [toggled]

/-- Of two connectives that are set the last one stays. -/
theorem withConnective_withConnective (op op' : Connective) (n : Node) :
    (n.withConnective op).withConnective op' = n.withConnective op' := by
  cases n <;> rfl

end Node

namespace Expression

open Node

variable {e t : Expression} {p : Path} {f : Node → Node} {kinds : Bool → Prop}

/-- An edit whose change is a function on the nodes of some kinds alters the node at its path. -/
theorem edit_eq_ok_iff {change : Change}
    (h : ∀ m o, change m = .ok o ↔ kinds m.isGroup ∧ o = some (f m)) :
    e.edit p change = .ok t ↔
      e.toNode.HasKindAt p kinds ∧ t.toNode = alter f p e.toNode := by
  constructor
  · intro ht
    obtain ⟨m, o, -, -, hm, ho, -⟩ := exists_of_edit ht
    obtain ⟨hkind, rfl⟩ := (h m o).mp ho
    rw [edit_eq_alter hm ho, ofRoot_eq_ok_iff] at ht
    exact ⟨⟨m, at?_eq_ok_iff.mp hm, hkind⟩, ht⟩
  · rintro ⟨⟨m, hm, hkind⟩, ht⟩
    rw [edit_eq_alter (at?_eq_ok_iff.mpr hm) ((h m _).mpr ⟨hkind, rfl⟩), ofRoot_eq_ok_iff]
    exact ht

theorem setConnective_eq_alter {raw : Value} {op op' : Connective} {cs : List Node}
    {negated : Bool} (hgroup : e.at? p = .ok (.group op cs negated))
    (hraw : Connective.ofValue? raw = some op') :
    e.setConnective p raw = ofRoot (alter (withConnective op') p e.toNode) := by
  rw [setConnective, hraw]
  exact edit_eq_alter hgroup rfl

end Expression

namespace Edit

open Node

variable {e t u : Expression} {s s' : Edit} {p q : Path} {f f' : Node → Node}
  {kinds kinds' : Bool → Prop}

/-! ## Edits as functions -/

/-- An edit can be made at nodes of some kinds, and what it makes of them is given by a function. -/
def Alters (s : Edit) (kinds : Bool → Prop) (f : Node → Node) : Prop :=
  ∀ e t, s.apply e = .ok t ↔
    e.toNode.HasKindAt s.path kinds ∧ t.toNode = alter f s.path e.toNode

/-- Replacing alters whatever is at the path. -/
theorem alters_replace (p : Path) (n : Node) :
    (replace p n).Alters (fun _ => True) (fun _ => n) := by
  intro e t
  rw [apply, Expression.replace]
  refine Expression.edit_eq_ok_iff ?_
  simp [eq_comm]

/-- Toggling alters whatever is at the path. -/
theorem alters_toggle (p : Path) : (toggle p).Alters (fun _ => True) toggled := by
  intro e t
  rw [apply, Expression.toggle]
  refine Expression.edit_eq_ok_iff ?_
  rintro (c | ⟨op, cs, negated⟩) o <;> simp [toggled, eq_comm]

/-- Setting a connective alters groups. -/
theorem alters_setConnective {raw : Value} {op : Connective}
    (hraw : Connective.ofValue? raw = some op) (p : Path) :
    (setConnective p raw).Alters (· = true) (withConnective op) := by
  intro e t
  rw [apply, Expression.setConnective, hraw]
  refine Expression.edit_eq_ok_iff ?_
  rintro (c | ⟨op', cs, negated⟩) o <;> simp [withConnective, isGroup, eq_comm]

/-- Changing a condition alters conditions. -/
theorem alters_update {changes : List (String × Value)} {ch : ConditionChange}
    (hch : ConditionChange.ofNamed changes = .ok ch) (p : Path) :
    (update p changes).Alters (· = false) (updated ch) := by
  intro e t
  rw [apply, hch]
  refine Expression.edit_eq_ok_iff ?_
  rintro (c | ⟨op, cs, negated⟩) o <;> simp [updated, isGroup, Except.map, eq_comm]

/-- An edit that never succeeds alters nothing. -/
theorem alters_of_error (h : ∀ e t, s.apply e ≠ .ok t) : s.Alters (fun _ => False) id := by
  intro e t
  refine iff_of_false (h e t) ?_
  rintro ⟨⟨m, -, hkind⟩, -⟩
  exact hkind

/-- Edits that change the labels of nodes. -/
def Relabels : Edit → Prop
  | update _ _ | toggle _ | setConnective _ _ => True
  | replace _ _ | remove _ | insert _ _ _ => False

/-- Every edit that relabels alters by a relabelling. -/
theorem exists_relabelling (hs : s.Relabels) :
    ∃ kinds f, IsRelabelling f ∧ s.Alters kinds f := by
  cases s with
  | replace | remove | insert => cases hs
  | update p changes =>
    cases hch : ConditionChange.ofNamed changes with
    | error fault =>
      refine ⟨_, id, isRelabelling_id, alters_of_error fun e t h => ?_⟩
      rw [apply, hch] at h
      obtain ⟨m, o, -, -, -, ho, -⟩ := Expression.exists_of_edit h
      cases m <;> cases ho
    | ok ch => exact ⟨_, _, isRelabelling_updated ch, alters_update hch p⟩
  | toggle p => exact ⟨_, _, isRelabelling_toggled, alters_toggle p⟩
  | setConnective p raw =>
    cases hraw : Connective.ofValue? raw with
    | none =>
      refine ⟨_, id, isRelabelling_id, alters_of_error fun e t h => ?_⟩
      rw [apply, Expression.setConnective, hraw] at h
      cases h
    | some op => exact ⟨_, _, isRelabelling_withConnective op, alters_setConnective hraw p⟩

/-! ## Edits in turn -/

/-- The tree after two edits in turn, if both of them succeed. -/
def inTurn? (e : Expression) (s s' : Edit) : Option Expression :=
  ((s.apply e).bind fun t => s'.apply t).toOption

/-- Two edits in turn succeed just if both do. -/
theorem inTurn?_eq_some_iff :
    inTurn? e s s' = some t ↔ ∃ u, s.apply e = .ok u ∧ s'.apply u = .ok t := by
  unfold inTurn?
  cases s.apply e with
  | error fault => exact ⟨nofun, nofun⟩
  | ok u =>
    cases h : s'.apply u with
    | error fault =>
      simp only [Except.bind, h, Except.toOption, Except.ok.injEq, exists_eq_left', reduceCtorEq]
    | ok v =>
      simp only [Except.bind, h, Except.toOption, Option.some.injEq, Except.ok.injEq,
        exists_eq_left']

/-- Edits that do not ask for what the other one alters can be made in the other order. -/
theorem inTurn?_swap (hs : s.Alters kinds f) (hs' : s'.Alters kinds' f')
    (hspares : Spares f s.path s'.path) (hspares' : Spares f' s'.path s.path)
    (hcomm : ∀ n, alter f s.path (alter f' s'.path n) = alter f' s'.path (alter f s.path n))
    (h : inTurn? e s s' = some t) : inTurn? e s' s = some t := by
  obtain ⟨u, hu, ht⟩ := inTurn?_eq_some_iff.mp h
  obtain ⟨hkind, hu⟩ := (hs e u).mp hu
  obtain ⟨hkind', ht⟩ := (hs' u t).mp ht
  rw [hu, hspares.hasKindAt_alter] at hkind'
  -- in the other order the tree between the two edits has a group as its root as well
  have hgroup : (alter f' s'.path e.toNode).isGroup = true := hspares'.isGroup_alter _
  obtain ⟨v, hv⟩ := Expression.exists_ofRoot hgroup
  rw [Expression.ofRoot_eq_ok_iff] at hv
  refine inTurn?_eq_some_iff.mpr ⟨v, (hs' e v).mpr ⟨hkind', hv⟩, (hs v t).mpr ⟨?_, ?_⟩⟩
  · rwa [hv, hspares'.hasKindAt_alter]
  · rw [ht, hu, hv, hcomm]

/-- Edits of labels at different paths, and replacements at paths that part. -/
inductive Independent : Edit → Edit → Prop
  | relabel {s s' : Edit} : s.Relabels → s'.Relabels → s.path ≠ s'.path → Independent s s'
  | replace {p q : Path} {n n' : Node} : ¬p <+: q → ¬q <+: p →
      Independent (.replace p n) (.replace q n')

theorem Independent.symm (h : Independent s s') : Independent s' s := by
  cases h with
  | relabel hs hs' hpath => exact .relabel hs' hs hpath.symm
  | replace hpq hqp => exact .replace hqp hpq

/-- Independent edits that succeed in one order succeed in the other, with the same tree. -/
theorem Independent.swap (h : Independent s s') (ht : inTurn? e s s' = some t) :
    inTurn? e s' s = some t := by
  cases h with
  | relabel hs hs' hpath =>
    obtain ⟨kinds, f, hf, halters⟩ := exists_relabelling hs
    obtain ⟨kinds', f', hf', halters'⟩ := exists_relabelling hs'
    exact inTurn?_swap halters halters' (hf.spares _ _) (hf'.spares _ _)
      (hf.alter_comm hf' hpath) ht
  | replace hpq hqp =>
    exact inTurn?_swap (alters_replace _ _) (alters_replace _ _) (spares_of_apart hpq hqp _)
      (spares_of_apart hqp hpq _) (Node.alter_comm hpq hqp _ _) ht

/-- Independent edits come to the same in either order, or fail in both.  At one path two flips of
the negation undo each other, and of two connectives the later one counts. -/
theorem independent_edits_commute :
    (∀ (e : Expression) (s s' : Edit), Independent s s' → inTurn? e s s' = inTurn? e s' s) ∧
    (∀ (e t : Expression) (p : Path), e.toggle p = .ok t → t.toggle p = .ok e) ∧
    ∀ (e t : Expression) (p : Path) (raw raw' : Value), e.setConnective p raw = .ok t →
      t.setConnective p raw' = e.setConnective p raw' := by
  refine ⟨?_, ?_, ?_⟩
  · intro e s s' h
    ext t
    exact ⟨h.swap, h.symm.swap⟩
  · intro e t p ht
    obtain ⟨hkind, ht⟩ := (alters_toggle p e t).mp ht
    refine (alters_toggle p t e).mpr ⟨?_, ?_⟩
    · rw [ht]
      exact (isRelabelling_toggled.hasKindAt_alter p p _).mpr hkind
    · have hself : toggled ∘ toggled = id := funext toggled_toggled
      rw [ht, path, alter_alter, hself, alter_id]
  · intro e t p raw raw' ht
    obtain ⟨⟨op, cs, negated, hgroup⟩, op', hop'⟩ :=
      Expression.exists_setConnective_iff.mp ⟨t, ht⟩
    rw [← Connective.ofValue?_eq_some_iff] at hop'
    rw [Expression.setConnective_eq_alter hgroup hop', Expression.ofRoot_eq_ok_iff] at ht
    have hgroup' : t.at? p = .ok (.group op' cs negated) := Expression.at?_of_alter hgroup ht
    cases hraw : Connective.ofValue? raw' with
    | none => rw [Expression.setConnective, Expression.setConnective, hraw]
    | some op'' =>
      have hlast : withConnective op'' ∘ withConnective op' = withConnective op'' :=
        funext (withConnective_withConnective op' op'')
      rw [Expression.setConnective_eq_alter hgroup hraw,
        Expression.setConnective_eq_alter hgroup' hraw, ht, alter_alter, hlast]

/-- The connective of a negated group, and the condition inside of it. -/
theorem independent_edits_commute_nested :
    let c : Condition := { field := .text "intent.score", operator := .text "gte" }
    let e : Expression := { children := [.group .or [.condition c] true] }
    let s : Edit := .setConnective [0] (.text "And")
    let s' : Edit := .update [0, 0] [("value", .int 7), ("negated", .bool true)]
    let t : Expression := { children := [
      .group .and [.condition { c with value := .int 7, negated := true }] true] }
    let u : Expression := { children := [.group .or [.condition c] false] }
    Independent s s' ∧ inTurn? e s s' = some t ∧ inTurn? e s' s = some t ∧
      e.toggle [0] = .ok u ∧ u.toggle [0] = .ok e := by
  intro c e s s' t u
  obtain ⟨hcomm, htoggle, -⟩ := independent_edits_commute
  have hindependent : Independent s s' := .relabel trivial trivial (by decide)
  have hturn : inTurn? e s s' = some t := rfl
  exact ⟨hindependent, hturn, (hcomm e s s' hindependent).symm.trans hturn, rfl,
    htoggle e u [0] rfl⟩

end Edit

end Cohort
