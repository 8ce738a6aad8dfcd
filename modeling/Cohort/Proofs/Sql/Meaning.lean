import Cohort.Catalog.Bundled
import Cohort.Proofs.Sql.Reading
import Cohort.Proofs.Sql.Rendering
import Mathlib.Data.List.Forall2

/-!
# A clause means its tree

The value of a tree is defined on the tree: a condition that is tested has the
value of its test, one that is degraded holds, and a group has the value that
its children have together.  The text that is compiled, read back as a formula,
has the same value under every assignment of truth values to the tests.
-/

namespace Cohort.Sql

/-! ## The value of a tree -/

/-- The constant that the test of a condition is, if it tests for membership of the empty list. -/
def constantTest? (c : Condition) : Option Bool :=
  (Operator.ofValue? c.operator).bind (emptyTest? · c.value)

/-- Whether a condition is left to the database. -/
def isTested (cat : Catalog) (c : Condition) : Bool := isLowered cat c && (constantTest? c).isNone

/-- The value of a condition whose test has the value `t`.  A degraded condition holds, negated or
not. -/
def conditionValue (cat : Catalog) (t : Truth) (c : Condition) : Truth :=
  if isLowered cat c then .negateIf c.negated ((constantTest? c).elim t .ofBool) else .holds

mutual

/-- The value of a node, where the value of its first test is `σ k`. -/
def nodeValue (cat : Catalog) (σ : Nat → Truth) (k : Nat) : Node → Truth
  | .condition c => conditionValue cat (σ k) c
  | .group op cs negated => .negateIf negated (.ofGroup op (nodeValues cat σ k cs))

def nodeValues (cat : Catalog) (σ : Nat → Truth) (k : Nat) : List Node → List Truth
  | [] => []
  | n :: ns => nodeValue cat σ k n :: nodeValues cat σ (k + n.leaves.countP (isTested cat)) ns

end

/-! ## The formula of a tree -/

/-- The words of the test of a condition whose slots are numbered from `next` on. -/
def testWords (d : Dialect) (cat : Catalog) (next : Nat) (c : Condition) : List String :=
  words (d.render (Clause.ofCondition cat next { c with negated := false }).tokens)

def conditionFormula (d : Dialect) (cat : Catalog) (next : Nat) (c : Condition) : Formula :=
  if isLowered cat c then
    .negateIf c.negated ((constantTest? c).elim (.atom (testWords d cat next c)) .constant)
  else .constant true

mutual

def nodeFormula (d : Dialect) (cat : Catalog) (next : Nat) : Node → Formula
  | .condition c => conditionFormula d cat next c
  | .group op cs negated => .negateIf negated (.ofGroup op (nodeFormulas d cat next cs))

def nodeFormulas (d : Dialect) (cat : Catalog) (next : Nat) : List Node → List Formula
  | [] => []
  | n :: ns =>
    nodeFormula d cat next n
      :: nodeFormulas d cat (next + (Clause.ofNode cat next n).params.length) ns

end

/-- Some words are those of the test of a condition. -/
def AreTestWords (d : Dialect) (cat : Catalog) (c : Condition) (ws : List String) : Prop :=
  ∃ next, ws = testWords d cat next c

section Atoms

variable {d : Dialect} {cat : Catalog}

/-- A condition is at most one atom: it is one if it is left to the database. -/
theorem atoms_conditionFormula (next : Nat) (c : Condition) :
    (conditionFormula d cat next c).atoms =
      if isTested cat c then [testWords d cat next c] else [] := by
  unfold conditionFormula isTested
  cases isLowered cat c with
  | false => rfl
  | true =>
    rw [if_pos rfl, Formula.atoms_negateIf]
    cases constantTest? c <;> rfl

mutual

/-- The atoms of a formula are the tests of its tree, in order. -/
theorem atoms_nodeFormula (next : Nat) (n : Node) :
    List.Forall₂ (AreTestWords d cat) (n.leaves.filter (isTested cat))
      (nodeFormula d cat next n).atoms :=
  match n with
  | .condition c => by
    rw [nodeFormula, atoms_conditionFormula, Node.leaves_condition]
    cases h : isTested cat c with
    | false => simp [h]
    | true => simpa [h] using ⟨next, rfl⟩
  | .group op cs negated => by
    rw [nodeFormula, Formula.atoms_negateIf, Formula.atoms_ofGroup, Node.leaves_group]
    exact atoms_nodeFormulas next cs

theorem atoms_nodeFormulas (next : Nat) (ns : List Node) :
    List.Forall₂ (AreTestWords d cat) ((ns.flatMap Node.leaves).filter (isTested cat))
      ((nodeFormulas d cat next ns).flatMap Formula.atoms) :=
  match ns with
  | [] => .nil
  | n :: ns => by
    rw [nodeFormulas, List.flatMap_cons, List.flatMap_cons, List.filter_append]
    exact List.rel_append (atoms_nodeFormula next n) (atoms_nodeFormulas _ ns)

end

/-- A node has one atom for each condition that is left to the database. -/
theorem length_atoms_nodeFormula (next : Nat) (n : Node) :
    (nodeFormula d cat next n).atoms.length = n.leaves.countP (isTested cat) := by
  rw [List.countP_eq_length_filter, (atoms_nodeFormula next n).length_eq]

/-- The formula of a condition has the value that the condition has, as the database answers its
test. -/
theorem eval_conditionFormula (σ : Nat → Truth) (next k : Nat) (c : Condition) :
    (conditionFormula d cat next c).eval σ k = conditionValue cat (σ k) c := by
  unfold conditionFormula conditionValue
  split
  · rw [Formula.eval_negateIf]
    cases constantTest? c <;> rfl
  · rfl

mutual

/-- The formula of a node has the value of the node. -/
theorem eval_nodeFormula (σ : Nat → Truth) (next k : Nat) (n : Node) :
    (nodeFormula d cat next n).eval σ k = nodeValue cat σ k n :=
  match n with
  | .condition c => eval_conditionFormula σ next k c
  | .group op cs negated => by
    rw [nodeFormula, nodeValue, Formula.eval_negateIf, Formula.eval_ofGroup, evalAll_nodeFormulas]

theorem evalAll_nodeFormulas (σ : Nat → Truth) (next k : Nat) (ns : List Node) :
    Formula.evalAll σ k (nodeFormulas d cat next ns) = nodeValues cat σ k ns :=
  match ns with
  | [] => rfl
  | n :: ns => by
    rw [nodeFormulas, Formula.evalAll, nodeValues, eval_nodeFormula, length_atoms_nodeFormula,
      evalAll_nodeFormulas]

end

end Atoms

/-! ## The text of a tree -/

section Texts

variable {d : Dialect}

theorem ReadsAs.negateIf {c : Clause} {f : Formula} (h : ReadsAs (d.render c.tokens) f)
    (negated : Bool) : ReadsAs (d.render (c.negateIf negated).tokens) (f.negateIf negated) := by
  cases negated with
  | false => exact h
  | true =>
    obtain ⟨items, hreads, hlevel⟩ := h
    have hnot : Reads "NOT" [.word "NOT"] := .word (by decide)
    have h := (hnot.blank .nil).parenthesized hreads .nil
    refine ⟨[.word "NOT", enclose items], ?_, readLevel_not hlevel⟩
    have htext : d.render (c.negateIf true).tokens =
        "NOT" ++ " " ++ "" ++ "(" ++ d.render c.tokens ++ ")" ++ "" := by
      apply String.toList_injective
      simp [Clause.render_negateIf, Sql.negateIf]
    rw [htext]
    exact h

/-- The clause that is always true is read as a constant. -/
theorem readsAs_always : ReadsAs (d.render Clause.always.tokens) (.constant true) := by
  refine ⟨[.word "TRUE"], ?_, by rfl⟩
  simpa [Clause.always, Clause.ofWords, Dialect.token] using
    Reads.word (w := "TRUE") (by decide)

/-- The clause that is never true is read as a constant. -/
theorem readsAs_never : ReadsAs (d.render Clause.never.tokens) (.constant false) := by
  refine ⟨[.word "FALSE"], ?_, by rfl⟩
  simpa [Clause.never, Clause.ofWords, Dialect.token] using
    Reads.word (w := "FALSE") (by decide)

/-- Joined clauses are levels in parentheses with the connective between them. -/
theorem reads_join (op : Connective) {c : Clause} {cs : List Clause} {level : List Item}
    {levels : List (List Item)} (hc : Reads (d.render c.tokens) level)
    (hcs : List.Forall₂ (fun c l => Reads (d.render c.tokens) l) cs levels) :
    Reads (d.render (Clause.join op (c :: cs)).tokens)
      (((level :: levels).map enclose).intersperse (.word op.word)) := by
  -- the first clause is read by itself, so that only the rest is left for the induction
  have hone := Reads.nil.parenthesized hc .nil
  induction hcs generalizing c level with
  | nil =>
    have htext : d.render (Clause.join op [c]).tokens =
        "" ++ "(" ++ d.render c.tokens ++ ")" ++ "" := by
      simp [Clause.render_join, Sql.join]
    rw [htext]
    exact hone
  | @cons c' l' cs' ls' hc' hcs' ih =>
    have hword : Reads op.word [.word op.word] := by
      cases op <;> exact .word (by decide)
    have h := (hone.blank hword).blank (ih hc' (Reads.nil.parenthesized hc' .nil))
    have htext : d.render (Clause.join op (c :: c' :: cs')).tokens =
        "" ++ "(" ++ d.render c.tokens ++ ")" ++ "" ++ " " ++ op.word ++ " "
          ++ d.render (Clause.join op (c' :: cs')).tokens := by
      apply String.toList_injective
      simp [Clause.join, Dialect.token]
    rw [htext]
    exact h

/-- Clauses that are joined are read as the group of their formulas. -/
theorem readsAs_join (op : Connective) {cs : List Clause} {fs : List Formula}
    (h : List.Forall₂ (fun c f => ReadsAs (d.render c.tokens) f) cs fs) :
    ReadsAs (d.render (Clause.join op cs).tokens) (.ofGroup op fs) := by
  have hlevels : ∃ levels, List.Forall₂ (fun c l => Reads (d.render c.tokens) l) cs levels ∧
      levels.mapM readLevel = some fs := by
    induction h with
    | nil => exact ⟨[], .nil, rfl⟩
    | cons hc _ ih =>
      obtain ⟨level, hreads, hlevel⟩ := hc
      obtain ⟨levels, hall, hmap⟩ := ih
      exact ⟨level :: levels, .cons hreads hall, by simp [hlevel, hmap]⟩
  obtain ⟨levels, hall, hmap⟩ := hlevels
  cases hall with
  | nil =>
    cases hmap
    exact readsAs_always
  | cons hc hcs => exact ⟨_, reads_join op hc hcs, readLevel_group op (List.cons_ne_nil _ _) hmap⟩

/-- A membership test of the empty list is a constant clause, whatever the column. -/
theorem ofTest_of_emptyTest? {op : Operator} {v : Value} {b : Bool} (h : emptyTest? op v = some b)
    (column : Value) (next : Nat) :
    Clause.ofTest op column next v = if b then .always else .never := by
  unfold emptyTest? at h
  split at h
  case h_1 hv => cases h; simp [Clause.ofTest, Clause.member, hv]
  case h_2 hv => cases h; simp [Clause.ofTest, Clause.member, hv]
  case h_3 => cases h

/-- Whether every column of a catalog has a name. -/
def HasNames (cat : Catalog) : Prop := ∀ f ∈ cat.fields, ∃ s ∈ f.column.text?, IsName s

instance (cat : Catalog) : Decidable (HasNames cat) :=
  inferInstanceAs (Decidable (∀ f ∈ cat.fields, ∃ s ∈ f.column.text?, IsName s))

theorem HasNames.column {cat : Catalog} (h : HasNames cat) {f : Field} (hf : f ∈ cat.fields) :
    ∃ s, f.column = .text s ∧ IsName s := by
  obtain ⟨s, hs, hname⟩ := h f hf
  refine ⟨s, ?_, hname⟩
  cases hc : f.column <;> rw [hc] at hs <;> cases hs
  rfl

variable {cat : Catalog}

/-- The clause of a condition is read as the formula of the condition. -/
theorem readsAs_ofCondition (hcat : HasNames cat) (hlike : IsName d.likeWord) (next : Nat)
    (c : Condition) :
    ReadsAs (d.render (Clause.ofCondition cat next c).tokens) (conditionFormula d cat next c) := by
  unfold conditionFormula isLowered
  rcases Clause.ofCondition_cases cat c with ⟨_, hd, h⟩ | ⟨f, op, hf, hop, hs, hfit, hd, h⟩
  · rw [h, hd]
    exact readsAs_always
  · have htest : Clause.ofCondition cat next { c with negated := false } =
        Clause.ofTest op f.column next c.value := by
      simp [Clause.ofCondition, target, hf, hop, hs, hfit, Clause.negateIf]
    have hconstant : constantTest? c = emptyTest? op c.value := by rw [constantTest?, hop]; rfl
    rw [h, hd, Option.isNone_none, if_pos rfl, hconstant]
    refine ReadsAs.negateIf ?_ c.negated
    cases hempty : emptyTest? op c.value with
    | none =>
      obtain ⟨s, hs', hname⟩ := hcat.column (Catalog.mem_fields_of_find? hf)
      rw [Option.elim_none, testWords, htest, hs']
      exact readsAtom_ofTest d hname next hlike.readsName hs hfit hempty
    | some b =>
      rw [ofTest_of_emptyTest? hempty]
      cases b
      · exact readsAs_never
      · exact readsAs_always

mutual

/-- The text of a node is read as its formula. -/
theorem readsAs_ofNode (hcat : HasNames cat) (hlike : IsName d.likeWord) (next : Nat) (n : Node) :
    ReadsAs (d.render (Clause.ofNode cat next n).tokens) (nodeFormula d cat next n) :=
  match n with
  | .condition c => readsAs_ofCondition hcat hlike next c
  | .group op cs negated => (readsAs_join op (readsAs_ofNodes hcat hlike next cs)).negateIf negated

theorem readsAs_ofNodes (hcat : HasNames cat) (hlike : IsName d.likeWord) (next : Nat)
    (ns : List Node) :
    List.Forall₂ (fun c f => ReadsAs (d.render c.tokens) f) (Clause.ofNodes cat next ns)
      (nodeFormulas d cat next ns) :=
  match ns with
  | [] => .nil
  | n :: ns => .cons (readsAs_ofNode hcat hlike next n) (readsAs_ofNodes hcat hlike _ ns)

end

end Texts

/-! ## The clause of an expression -/

theorem HasNames.exists_column {cat : Catalog} (h : HasNames cat) (d : Dialect) :
    ∀ f ∈ cat.fields, ∃ column, d.column f.column = .ok column := by
  intro f hf
  obtain ⟨s, hs, -⟩ := h.column hf
  rw [hs, Dialect.column]
  split <;> exact ⟨_, rfl⟩

/-- One condition for which something cannot be written is enough to end the compilation. -/
theorem query_compile_of_not_isWritable {cat : Catalog} (hcat : HasNames cat) {d : Dialect}
    {e : Expression} {c : Condition} (hc : c ∈ e.leaves) (h : isWritable d cat c = false) :
    (compile d cat e).query = .error .value := by
  rw [compile_eq]
  cases hm : hindrance? d cat e with
  | none =>
    have hnone : obstacle? d cat c = none := obstacle?_of_hindrance? hm c hc
    rw [isWritable, hnone] at h
    cases h
  | some m =>
    obtain ⟨c', -, hc'⟩ := List.exists_of_findSome?_eq_some hm
    exact congrArg Except.error ((obstacle?_eq_some_iff (hcat.exists_column d)).mp hc').1

/-- Where every column has a name, an expression is compiled to a text that is read as a formula
with the value of the expression under every assignment.  The atoms of the formula are the tests of
the conditions that are left to the database, in order.  But nothing is compiled as soon as
something that is written for a condition has too many digits. -/
theorem read_compile {cat : Catalog} (hcat : HasNames cat) {d : Dialect} (hlike : IsName d.likeWord)
    (e : Expression) :
    ((∀ c ∈ e.leaves, isWritable d cat c = true) →
      ∃ (q : Query) (f : Formula),
        (compile d cat e).query = .ok q ∧
        read q.text = some f ∧
        List.Forall₂ (AreTestWords d cat) (e.leaves.filter (isTested cat)) f.atoms ∧
        ∀ σ : Nat → Truth, f.eval σ 0 = nodeValue cat σ 0 e.toNode) ∧
    ∀ c ∈ e.leaves, isWritable d cat c = false → (compile d cat e).query = .error .value := by
  refine ⟨fun hwritable => ?_, fun c hc => query_compile_of_not_isWritable hcat hc⟩
  have hnone : hindrance? d cat e = none := all_isWritable_iff.mp (List.all_eq_true.mpr hwritable)
  refine ⟨⟨d.render (Clause.ofExpression cat e).tokens, (Clause.ofExpression cat e).params⟩,
    nodeFormula d cat 1 e.toNode, ?_, (readsAs_ofNode hcat hlike 1 e.toNode).read_eq,
    atoms_nodeFormula 1 e.toNode, fun σ => eval_nodeFormula σ 1 0 e.toNode⟩
  rw [compile_eq, hnone]

/-- A constant test, a range test and a degraded condition, all of them negated, read back. -/
theorem read_compile_bundled :
    let e : Expression := {
      connective := .or
      children := [
        .condition { field := .text "intent.topics", operator := .text "in", value := .list [],
                     negated := true },
        .group .and [
          .condition { field := .text "intent.score", operator := .text "between",
                       value := .tuple [.int 1, .int 5], negated := true },
          .condition { field := .text "business.shoe_size", operator := .text "eq",
                       negated := true }] true] }
    HasNames .bundled ∧ IsName ({} : Dialect).likeWord ∧
    (∀ c ∈ e.leaves, isWritable {} .bundled c = true) ∧
    ∃ (q : Query) (f : Formula),
      (compile {} .bundled e).query = .ok q ∧ read q.text = some f ∧
      ∀ σ : Nat → Truth, f.eval σ 0 = nodeValue .bundled σ 0 e.toNode := by
  intro e
  have hcat : HasNames .bundled := by decide +kernel
  have hlike : IsName ({} : Dialect).likeWord := by decide +kernel
  have hwritable : ∀ c ∈ e.leaves, isWritable {} .bundled c = true := by decide +kernel
  obtain ⟨q, f, hq, hf, -, heval⟩ := (read_compile hcat hlike e).1 hwritable
  exact ⟨hcat, hlike, hwritable, q, f, hq, hf, heval⟩

/-- A range whose only bound has too many digits leaves no clause, although it is degraded. -/
theorem compile_tooLong :
    let c : Condition := { field := .text "business.employee_count", operator := .text "between",
                           value := .list [.tooLong] }
    HasNames .bundled ∧ IsName ({} : Dialect).likeWord ∧ isLowered .bundled c = false ∧
    (compile {} .bundled { children := [.condition c] }).query = .error .value := by
  intro c
  have hcat : HasNames .bundled := by decide +kernel
  have hlike : IsName ({} : Dialect).likeWord := by decide +kernel
  have hd : degradation? .bundled c = some (.malformedValue (expectation .between)) := rfl
  have htarget : target .bundled c = .ok (.between, .text "business.employee_count") := rfl
  have hvalue : c.value.isWritable = false := Value.isWritable_list_tooLong
  have hunfit : isWritable {} .bundled c = false := by
    have hcolumn : ({} : Dialect).column (.text "business.employee_count") =
        .ok (.text "business.employee_count") := rfl
    have hfits : fits .between c.value = false := rfl
    rw [isWritable, obstacle?_of_column htarget hcolumn, hfits]
    simp [Degradation.told, hvalue]
  refine ⟨hcat, hlike, by rw [isLowered, hd]; rfl, ?_⟩
  exact query_compile_of_not_isWritable hcat (List.mem_singleton_self c) hunfit

end Cohort.Sql
