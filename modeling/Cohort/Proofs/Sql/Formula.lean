import Cohort.Expression.Basic

/-!
# Boolean formulas

The query language has three truth values, since a test of a column that has no
value is neither true nor false.  A formula is a constant, an atom, or made of
formulas with NOT, AND and OR; an atom is a test that is left to the database,
kept as its words.  The places at which atoms stand are counted from left to
right, and an assignment gives each place a truth value of its own.
-/

namespace Cohort.Sql

inductive Truth where
  | fails
  | unknown
  | holds
  deriving DecidableEq, Repr

namespace Truth

def ofBool : Bool → Truth
  | false => fails
  | true => holds

def not : Truth → Truth
  | fails => holds
  | unknown => unknown
  | holds => fails

def negateIf (negated : Bool) (t : Truth) : Truth := if negated then t.not else t

def and : Truth → Truth → Truth
  | fails, _ | _, fails => fails
  | holds, holds => holds
  | _, _ => unknown

def or : Truth → Truth → Truth
  | holds, _ | _, holds => holds
  | fails, fails => fails
  | _, _ => unknown

def joined : Connective → Truth → Truth → Truth
  | .and => and
  | .or => or

/-- The value of a group with the values of its children.  The empty group holds. -/
def ofGroup : Connective → List Truth → Truth
  | _, [] => holds
  | .and, ts => ts.foldr and holds
  | .or, ts => ts.foldr or fails

theorem ofGroup_singleton (op : Connective) (t : Truth) : ofGroup op [t] = t := by
  cases op <;> cases t <;> rfl

theorem ofGroup_cons_cons (op : Connective) (t u : Truth) (ts : List Truth) :
    ofGroup op (t :: u :: ts) = joined op t (ofGroup op (u :: ts)) := by
  cases op <;> rfl

/-- A group of conditions that hold holds, under either connective. -/
theorem ofGroup_replicate_holds (op : Connective) (m : Nat) :
    ofGroup op (List.replicate m holds) = holds := by
  induction m with
  | zero => cases op <;> rfl
  | succ m ih =>
    cases m with
    | zero => exact ofGroup_singleton op holds
    | succ m =>
      rw [List.replicate_succ] at ih
      rw [List.replicate_succ, List.replicate_succ, ofGroup_cons_cons, ih]
      cases op <;> rfl

end Truth

inductive Formula where
  | constant (b : Bool)
  | atom (words : List String)
  | not (f : Formula)
  | joined (op : Connective) (f g : Formula)
  deriving DecidableEq, Repr

namespace Formula

def negateIf (negated : Bool) (f : Formula) : Formula := if negated then f.not else f

def ofGroup (op : Connective) : List Formula → Formula
  | [] => constant true
  | [f] => f
  | f :: g :: fs => joined op f (ofGroup op (g :: fs))

def atoms : Formula → List (List String)
  | constant _ => []
  | atom words => [words]
  | not f => f.atoms
  | joined _ f g => f.atoms ++ g.atoms

/-- The value of a formula whose atoms stand at the places from number `k` on. -/
def eval (σ : Nat → Truth) (k : Nat) : Formula → Truth
  | constant b => .ofBool b
  | atom _ => σ k
  | not f => (f.eval σ k).not
  | joined op f g => .joined op (f.eval σ k) (g.eval σ (k + f.atoms.length))

def evalAll (σ : Nat → Truth) (k : Nat) : List Formula → List Truth
  | [] => []
  | f :: fs => f.eval σ k :: evalAll σ (k + f.atoms.length) fs

/-- A negation has the atoms of what it negates. -/
@[simp] theorem atoms_negateIf (negated : Bool) (f : Formula) :
    (f.negateIf negated).atoms = f.atoms := by
  cases negated <;> rfl

@[simp] theorem eval_negateIf (σ : Nat → Truth) (k : Nat) (negated : Bool) (f : Formula) :
    (f.negateIf negated).eval σ k = (f.eval σ k).negateIf negated := by
  cases negated <;> rfl

@[simp] theorem atoms_ofGroup (op : Connective) (fs : List Formula) :
    (ofGroup op fs).atoms = fs.flatMap atoms := by
  induction fs with
  | nil => rfl
  | cons f fs ih =>
    cases fs with
    | nil => simp [ofGroup]
    | cons g gs => simp [ofGroup, atoms, ih]

/-- A group has the value that the values of its children have together. -/
theorem eval_ofGroup (σ : Nat → Truth) (op : Connective) (k : Nat) (fs : List Formula) :
    (ofGroup op fs).eval σ k = .ofGroup op (evalAll σ k fs) := by
  induction fs generalizing k with
  | nil => cases op <;> rfl
  | cons f fs ih =>
    cases fs with
    | nil => rw [ofGroup, evalAll, evalAll, Truth.ofGroup_singleton]
    | cons g gs =>
      rw [ofGroup, eval, ih]
      simp only [evalAll, Truth.ofGroup_cons_cons]

/-- The atoms of what comes later are counted behind those of what comes before. -/
theorem evalAll_append (σ : Nat → Truth) (k : Nat) (fs gs : List Formula) :
    evalAll σ k (fs ++ gs) =
      evalAll σ k fs ++ evalAll σ (k + (fs.flatMap atoms).length) gs := by
  induction fs generalizing k with
  | nil => rfl
  | cons f fs ih =>
    rw [List.cons_append, evalAll, evalAll, ih, List.flatMap_cons,
      List.length_append, Nat.add_assoc, List.cons_append]

end Formula

end Cohort.Sql
