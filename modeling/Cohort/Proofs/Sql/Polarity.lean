import Cohort.Proofs.Sql.Naming
import Mathlib.Algebra.Ring.Parity
import Mathlib.Data.Nat.Bits
import Mathlib.Order.MinMax

/-!
# Degraded conditions by polarity

A degraded condition is taken to be true.  What that does to a tree depends on
the number of negated groups that the condition lies under: under an even
number it can only raise the value of the tree, under an odd number it can only
lower it.
-/

namespace Cohort

/-! ## Truth values in order -/

namespace Sql.Truth

def rank : Truth → Nat
  | fails => 0
  | unknown => 1
  | holds => 2

/-- What fails is below the unknown, and that is below what holds. -/
instance : PartialOrder Truth :=
  PartialOrder.lift rank fun t u => by cases t <;> cases u <;> simp [rank]

/-- A negation turns the order of the truth values around. -/
theorem rank_not (t : Truth) : t.not.rank = 2 - t.rank := by
  cases t <;> rfl

theorem rank_and (t u : Truth) : (t.and u).rank = min t.rank u.rank := by
  cases t <;> cases u <;> rfl

theorem rank_or (t u : Truth) : (t.or u).rank = max t.rank u.rank := by
  cases t <;> cases u <;> rfl

theorem le_holds (t : Truth) : t ≤ holds := by
  change t.rank ≤ 2
  cases t <;> decide

variable {t t' u u' : Truth}

/-- Negation is antitone. -/
theorem not_le_not (h : t ≤ u) : u.not ≤ t.not := by
  change u.not.rank ≤ t.not.rank
  rw [rank_not, rank_not]
  exact Nat.sub_le_sub_left h 2

/-- Both connectives are monotone. -/
theorem joined_le_joined (op : Connective) (h : t ≤ u) (h' : t' ≤ u') :
    joined op t t' ≤ joined op u u' := by
  cases op with
  | and =>
    change (t.and t').rank ≤ (u.and u').rank
    rw [rank_and, rank_and]
    exact min_le_min h h'
  | or =>
    change (t.or t').rank ≤ (u.or u').rank
    rw [rank_or, rank_or]
    exact max_le_max h h'

/-- One value is at most another, in the turned order if asked for. -/
def AtMost : Bool → Truth → Truth → Prop
  | false, t, u => t ≤ u
  | true, t, u => u ≤ t

variable {turned : Bool}

theorem AtMost.refl (turned : Bool) (t : Truth) : AtMost turned t t := by
  cases turned <;> exact le_refl t

/-- A negation turns the order. -/
theorem AtMost.negateIf (h : AtMost turned t u) (negated : Bool) :
    AtMost (turned ^^ negated) (t.negateIf negated) (u.negateIf negated) := by
  cases negated with
  | false => rwa [Bool.xor_false]
  | true => cases turned <;> exact not_le_not h

/-- A bound on both sides of a connective is a bound on what they make, in either direction. -/
theorem AtMost.joined (op : Connective) (h : AtMost turned t u) (h' : AtMost turned t' u') :
    AtMost turned (joined op t t') (joined op u u') := by
  cases turned <;> exact joined_le_joined op h h'

/-- A group keeps the order of its children. -/
theorem AtMost.ofGroup (op : Connective) {ts us : List Truth}
    (h : List.Forall₂ (AtMost turned) ts us) : AtMost turned (ofGroup op ts) (ofGroup op us) := by
  induction h with
  | nil => exact .refl turned _
  | cons hfirst hrest ih =>
    cases hrest with
    | nil => rwa [ofGroup_singleton, ofGroup_singleton]
    | cons =>
      rw [ofGroup_cons_cons, ofGroup_cons_cons]
      exact .joined op hfirst ih

end Sql.Truth

/-! ## Conditions under negated groups -/

namespace Node

mutual

/-- The conditions of a node, each with the number of negated groups that it lies under; `m` of them
are above the node. -/
def leavesUnder (m : Nat) : Node → List (Condition × Nat)
  | condition c => [(c, m)]
  | group _ cs negated => leavesUnderAll (m + negated.toNat) cs

def leavesUnderAll (m : Nat) : List Node → List (Condition × Nat)
  | [] => []
  | n :: ns => n.leavesUnder m ++ leavesUnderAll m ns

end

end Node

namespace Sql

variable {cat : Catalog}

/-- The value of a condition whose test has the value `t` if it has one, and `u` if the condition is
degraded. -/
def intendedConditionValue (cat : Catalog) (t u : Truth) (c : Condition) : Truth :=
  if isLowered cat c then conditionValue cat t c else .negateIf c.negated u

mutual

/-- The value that a node would have if its degraded conditions were tested as well: the value of
its first test is `σ k`, and that of its first degraded condition is `τ j`. -/
def intendedValue (cat : Catalog) (σ τ : Nat → Truth) (k j : Nat) : Node → Truth
  | .condition c => intendedConditionValue cat (σ k) (τ j) c
  | .group op cs negated => .negateIf negated (.ofGroup op (intendedValues cat σ τ k j cs))

def intendedValues (cat : Catalog) (σ τ : Nat → Truth) (k j : Nat) : List Node → List Truth
  | [] => []
  | n :: ns =>
    intendedValue cat σ τ k j n
      :: intendedValues cat σ τ (k + n.leaves.countP (isTested cat))
        (j + n.leaves.countP (!isLowered cat ·)) ns

end

/-- The degraded ones among conditions all lie under an odd number of negated groups, or all under
an even number. -/
def DegradedAt (cat : Catalog) (odd : Bool) (cs : List (Condition × Nat)) : Prop :=
  ∀ x ∈ cs, isLowered cat x.1 = false → x.2.bodd = odd

/-- A degraded condition holds, whatever the database answers. -/
theorem conditionValue_of_degraded {c : Condition} (h : isLowered cat c = false) (t : Truth) :
    conditionValue cat t c = .holds := by
  rw [conditionValue, h]
  rfl

section Bounds

variable (σ τ : Nat → Truth) {odd : Bool}

-- the order is turned once for each negated group between a node and its degraded conditions
mutual

/-- A node has at least the value that it would have, or at most that, by the number of negated
groups between it and its degraded conditions. -/
theorem atMost_nodeValue (k j m : Nat) (n : Node) (h : DegradedAt cat odd (n.leavesUnder m)) :
    (intendedValue cat σ τ k j n).AtMost (odd ^^ m.bodd) (nodeValue cat σ k n) :=
  match n with
  | .condition c => by
    rw [intendedValue, nodeValue, intendedConditionValue]
    cases hlowered : isLowered cat c with
    | true => exact .refl _ _
    | false =>
      have hodd : m.bodd = odd := h (c, m) (by simp [Node.leavesUnder]) hlowered
      rw [hodd, Bool.xor_self, conditionValue_of_degraded hlowered]
      exact Truth.le_holds _
  | .group op cs negated => by
    rw [Node.leavesUnder] at h
    have hgroup := (Truth.AtMost.ofGroup op (atMost_nodeValues k j _ cs h)).negateIf negated
    have hturned : (odd ^^ (m + negated.toNat).bodd ^^ negated) = (odd ^^ m.bodd) := by
      have hnegated : negated.toNat.bodd = negated := by cases negated <;> rfl
      rw [Nat.bodd_add, hnegated, Bool.xor_assoc, Bool.xor_assoc, Bool.xor_self, Bool.xor_false]
    rwa [hturned] at hgroup

theorem atMost_nodeValues (k j m : Nat) (ns : List Node)
    (h : DegradedAt cat odd (Node.leavesUnderAll m ns)) :
    List.Forall₂ (Truth.AtMost (odd ^^ m.bodd)) (intendedValues cat σ τ k j ns)
      (nodeValues cat σ k ns) :=
  match ns with
  | [] => .nil
  | n :: ns => by
    rw [Node.leavesUnderAll, DegradedAt, List.forall_mem_append] at h
    exact .cons (atMost_nodeValue k j m n h.1) (atMost_nodeValues _ _ m ns h.2)

end

end Bounds

theorem bodd_eq_false_iff {m : Nat} : m.bodd = false ↔ Even m := by
  rw [Nat.even_iff, Nat.mod_two_of_bodd]
  cases m.bodd <;> simp

theorem bodd_eq_true_iff {m : Nat} : m.bodd = true ↔ Odd m := by
  rw [Nat.odd_iff, Nat.mod_two_of_bodd]
  cases m.bodd <;> simp

/-! ## The flag of a degraded condition -/

/-- Two conditions are the same, or they are degraded and the same but for being negated. -/
def FlipsDegraded (cat : Catalog) (c c' : Condition) : Prop :=
  c' = c ∨ isLowered cat c = false ∧ ∃ negated, c' = { c with negated }

/-- Turning the negation of a degraded condition changes no misuse. -/
theorem FlipsDegraded.obstacle?_eq {c c' : Condition} (h : FlipsDegraded cat c c') (d : Dialect) :
    obstacle? d cat c = obstacle? d cat c' := by
  obtain rfl | ⟨-, negated, rfl⟩ := h
  · rfl
  · rfl

/-- The clause of a degraded condition is always true, also under its own negation. -/
theorem ofCondition_of_degraded {c : Condition} (h : isLowered cat c = false) (next : Nat) :
    Clause.ofCondition cat next c = .always := by
  rcases Clause.ofCondition_cases cat c with ⟨_, -, halways⟩ | ⟨_, _, -, -, -, -, hd, -⟩
  · exact halways next
  · rw [isLowered, hd] at h
    cases h

/-- Turning the negation of a degraded condition changes no clause. -/
theorem FlipsDegraded.ofCondition_eq {c c' : Condition} (h : FlipsDegraded cat c c') (next : Nat) :
    Clause.ofCondition cat next c = Clause.ofCondition cat next c' := by
  obtain rfl | ⟨hdegraded, negated, rfl⟩ := h
  · rfl
  · have hdegraded' : isLowered cat { c with negated } = false := hdegraded
    rw [ofCondition_of_degraded hdegraded, ofCondition_of_degraded hdegraded']

/-! ## Failing open -/

/-- A query is a clause of tokens rendered in a dialect, unless the expression has something in it
that the dialect cannot write.  Read with any names for the columns, the clause has at least the
value that its expression would have under any values of the degraded conditions if they all lie
under an even number of negated groups, and at most that value if they all lie under an odd number.
Whether a degraded condition is itself negated makes no difference to the query.  Columns whose own
names can be read need no other ones (`render_rename_shown`). -/
theorem degraded_by_polarity (cat : Catalog) (e : Expression) :
    (∀ d : Dialect, (compile d cat e).query =
      match hindrance? d cat e with
      | none =>
        .ok ⟨d.render (Clause.ofExpression cat e).tokens, (Clause.ofExpression cat e).params⟩
      | some m => .error m) ∧
    (∀ (d : Dialect) (ρ : Value → String), IsName d.likeWord →
      (∀ f ∈ cat.fields, IsName (ρ f.column)) →
      ∃ f, read (d.render ((Clause.ofExpression cat e).tokens.map (Token.rename ρ))) = some f ∧
        List.Forall₂ (AreTestWords d (cat.renamed ρ)) (e.leaves.filter (isTested cat)) f.atoms ∧
        ∀ σ τ : Nat → Truth,
          ((∀ x ∈ e.toNode.leavesUnder 0, isLowered cat x.1 = false → Even x.2) →
            intendedValue cat σ τ 0 0 e.toNode ≤ f.eval σ 0) ∧
          ((∀ x ∈ e.toNode.leavesUnder 0, isLowered cat x.1 = false → Odd x.2) →
            f.eval σ 0 ≤ intendedValue cat σ τ 0 0 e.toNode)) ∧
    ∀ e', e.toNode.Matches (FlipsDegraded cat) e'.toNode →
      ∀ d, (compile d cat e).query = (compile d cat e').query := by
  refine ⟨?_, ?_, ?_⟩
  · intro d
    exact congrArg Compilation.query (compile_eq d cat e)
  · intro d ρ hlike hnames
    have hcat := Catalog.hasNames_renamed hnames
    have htokens : (Clause.ofExpression cat e).tokens.map (Token.rename ρ) =
        (Clause.ofExpression (cat.renamed ρ) e).tokens := by
      rw [Clause.ofExpression, Clause.ofExpression, Clause.ofNode_renamed]
      rfl
    have hatoms : List.Forall₂ (AreTestWords d (cat.renamed ρ))
        (e.leaves.filter (isTested (cat.renamed ρ)))
        (nodeFormula d (cat.renamed ρ) 1 e.toNode).atoms := atoms_nodeFormula 1 e.toNode
    rw [isTested_renamed] at hatoms
    refine ⟨nodeFormula d (cat.renamed ρ) 1 e.toNode, ?_, hatoms, ?_⟩
    · rw [htokens]
      exact (readsAs_ofNode hcat hlike 1 e.toNode).read_eq
    · intro σ τ
      rw [eval_nodeFormula, nodeValue_renamed]
      constructor
      · intro heven
        have hdegraded : DegradedAt cat false (e.toNode.leavesUnder 0) := fun x hx hdegraded =>
          bodd_eq_false_iff.mpr (heven x hx hdegraded)
        exact atMost_nodeValue σ τ 0 0 0 e.toNode hdegraded
      · intro hodd
        have hdegraded : DegradedAt cat true (e.toNode.leavesUnder 0) := fun x hx hdegraded =>
          bodd_eq_true_iff.mpr (hodd x hx hdegraded)
        exact atMost_nodeValue σ τ 0 0 0 e.toNode hdegraded
  · intro e' h d
    exact query_compile_eq_of_matches (fun _ _ hc => hc.obstacle?_eq d)
      (fun _ _ hc next => hc.ofCondition_eq next) h

/-- An unknown field under one negation: its own negation changes nothing, and the clause selects at
most what is intended. -/
theorem degraded_by_polarity_bundled :
    let e (negated : Bool) : Expression := {
      connective := .or
      children := [
        .condition { field := .text "intent.score", operator := .text "gte", value := .int 5 },
        .group .and [
          .condition { field := .text "business.shoe_size", operator := .text "eq", negated },
          .condition { field := .text "intent.score", operator := .text "lt",
                       value := .int 9 }] true] }
    IsName ({} : Dialect).likeWord ∧ (∀ f ∈ Catalog.bundled.fields, IsName f.column.shown) ∧
    (∀ x ∈ (e false).toNode.leavesUnder 0, isLowered .bundled x.1 = false → Odd x.2) ∧
    ∃ (q : Query) (f : Formula),
      (compile {} .bundled (e false)).query = .ok q ∧ (compile {} .bundled (e true)).query = .ok q ∧
      read q.text = some f ∧
      ∀ σ τ : Nat → Truth, f.eval σ 0 ≤ intendedValue .bundled σ τ 0 0 (e false).toNode := by
  intro e
  have hlike : IsName ({} : Dialect).likeWord := by decide +kernel
  have hnames : ∀ f ∈ Catalog.bundled.fields, IsName f.column.shown := by decide +kernel
  have hodd : ∀ x ∈ (e false).toNode.leavesUnder 0, isLowered .bundled x.1 = false → Odd x.2 := by
    decide +kernel
  have hflip : (e false).toNode.Matches (FlipsDegraded .bundled) (e true).toNode := by
    refine ⟨rfl, rfl, .inl rfl, ⟨rfl, rfl, .inr ⟨?_, true, rfl⟩, .inl rfl, trivial⟩, trivial⟩
    decide +kernel
  have hnone : hindrance? {} .bundled (e false) = none := by decide +kernel
  obtain ⟨hquery, hvalue, hflag⟩ := degraded_by_polarity .bundled (e false)
  obtain ⟨f, hread, -, hbounds⟩ := hvalue {} Value.shown hlike hnames
  have hquery := hquery {}
  rw [hnone] at hquery
  rw [render_rename_shown] at hread
  refine ⟨hlike, hnames, hodd, _, f, hquery, ?_, hread, fun σ τ => (hbounds σ τ).2 hodd⟩
  rw [← hflag (e true) hflip, hquery]

end Sql

end Cohort
