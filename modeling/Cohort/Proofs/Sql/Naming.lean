import Cohort.Proofs.Sql.Meaning

/-!
# Other names for columns

Of the columns of a catalog the clause of a tree has nothing but the names.  So
a clause has a meaning whatever its columns are called: that of the clause with
names in their places that can be read.
-/

namespace Cohort

namespace Catalog

variable {ρ : Value → String} {cat : Catalog}

def renamed (ρ : Value → String) (cat : Catalog) : Catalog :=
  { cat with fields := cat.fields.map fun f => { f with column := .text (ρ f.column) } }

/-- A catalog with other names for its columns has the same fields under the same keys. -/
theorem find?_renamed (key : Value) :
    (cat.renamed ρ).find? key =
      (cat.find? key).map fun f => { f with column := .text (ρ f.column) } := by
  cases key
  case text s => exact List.find?_map ..
  all_goals rfl

/-- The names of a renamed catalog are those that it is renamed to. -/
theorem hasNames_renamed (h : ∀ f ∈ cat.fields, Sql.IsName (ρ f.column)) :
    Sql.HasNames (cat.renamed ρ) := by
  intro f hf
  obtain ⟨f', hf', rfl⟩ := List.mem_map.mp hf
  exact ⟨ρ f'.column, rfl, h f' hf'⟩

end Catalog

namespace Sql

variable {ρ : Value → String} {cat : Catalog}

def Token.rename (ρ : Value → String) : Token → Token
  | .column name => .column (.text (ρ name))
  | t => t

def Clause.rename (ρ : Value → String) (c : Clause) : Clause :=
  { c with tokens := c.tokens.map (Token.rename ρ) }

/-- Whether a condition degrades, and why, does not depend on the names of columns. -/
theorem degradation?_renamed (c : Condition) :
    degradation? (cat.renamed ρ) c = degradation? cat c := by
  unfold degradation?
  rw [Catalog.find?_renamed]
  cases cat.find? c.field with
  | none => rfl
  | some f => cases Operator.ofValue? c.operator <;> rfl

theorem isLowered_renamed (c : Condition) : isLowered (cat.renamed ρ) c = isLowered cat c := by
  rw [isLowered, degradation?_renamed, isLowered]

theorem isTested_renamed : isTested (cat.renamed ρ) = isTested cat := by
  funext c
  rw [isTested, isLowered_renamed, isTested]

mutual

/-- The value of a tree does not depend on the names of the columns. -/
theorem nodeValue_renamed (σ : Nat → Truth) (k : Nat) (n : Node) :
    nodeValue (cat.renamed ρ) σ k n = nodeValue cat σ k n :=
  match n with
  | .condition c => by
    rw [nodeValue, nodeValue, conditionValue, isLowered_renamed, conditionValue]
  | .group op cs negated => by rw [nodeValue, nodeValue, nodeValues_renamed]

theorem nodeValues_renamed (σ : Nat → Truth) (k : Nat) (ns : List Node) :
    nodeValues (cat.renamed ρ) σ k ns = nodeValues cat σ k ns :=
  match ns with
  | [] => rfl
  | n :: ns => by
    rw [nodeValues, nodeValues, nodeValue_renamed, nodeValues_renamed, isTested_renamed]

end

namespace Clause

/-- A renamed clause binds the same parameters. -/
@[simp] theorem params_rename (c : Clause) : (c.rename ρ).params = c.params := rfl

theorem rename_negateIf (negated : Bool) (c : Clause) :
    (c.negateIf negated).rename ρ = (c.rename ρ).negateIf negated := by
  cases negated
  · rfl
  · simp [negateIf, negate, rename, Token.rename]

theorem rename_join (op : Connective) (cs : List Clause) :
    (join op cs).rename ρ = join op (cs.map (rename ρ)) := by
  induction cs with
  | nil => rfl
  | cons c cs ih =>
    cases cs with
    | nil => simp [join, rename, Token.rename, parenthesized]
    | cons d ds =>
      rw [List.map_cons, List.map_cons, join, join, ← List.map_cons, ← ih]
      simp [rename, Token.rename]

theorem map_rename_slotList (next count : Nat) :
    (slotList next count).map (Token.rename ρ) = slotList next count := by
  fun_induction slotList next count <;> simp_all [Token.rename]

theorem rename_between (column : Value) (next : Nat) (v : Value) :
    (between column next v).rename ρ = between (.text (ρ column)) next v := by
  unfold between
  split <;> rfl

theorem rename_member (negated : Bool) (column : Value) (next : Nat) (v : Value) :
    (member negated column next v).rename ρ = member negated (.text (ρ column)) next v := by
  unfold member
  split
  · rfl
  · cases negated <;> rfl
  · simp [rename, Token.rename, map_rename_slotList]

theorem rename_withinRadius (column : Value) (next : Nat) (v : Value) :
    (withinRadius column next v).rename ρ = withinRadius (.text (ρ column)) next v := by
  unfold withinRadius
  split <;> rfl

/-- The test on a renamed column is the renamed test. -/
theorem rename_ofTest (op : Operator) (column : Value) (next : Nat) (v : Value) :
    (ofTest op column next v).rename ρ = ofTest op (.text (ρ column)) next v := by
  cases op
  case between => exact rename_between column next v
  case isIn => exact rename_member false column next v
  case notIn => exact rename_member true column next v
  case withinRadius => exact rename_withinRadius column next v
  all_goals rfl

/-- The clause of a condition in a renamed catalog is the renamed clause. -/
theorem ofCondition_renamed (next : Nat) (c : Condition) :
    ofCondition (cat.renamed ρ) next c = (ofCondition cat next c).rename ρ := by
  unfold ofCondition target
  rw [Catalog.find?_renamed]
  cases cat.find? c.field with
  | none => rfl
  | some f =>
    cases Operator.ofValue? c.operator with
    | none => rfl
    | some op =>
      cases hs : supports op with
      | false => simp only [Option.map_some, hs]; rfl
      | true =>
        simp only [Option.map_some, hs, if_true]
        split
        · rw [rename_negateIf, rename_ofTest]
        · rfl

mutual

/-- With other names for the columns a tree has the clause with other names in it. -/
theorem ofNode_renamed (next : Nat) (n : Node) :
    ofNode (cat.renamed ρ) next n = (ofNode cat next n).rename ρ :=
  match n with
  | .condition c => ofCondition_renamed next c
  | .group op cs negated => by
    rw [ofNode, ofNode, rename_negateIf, rename_join, ofNodes_renamed]

theorem ofNodes_renamed (next : Nat) (ns : List Node) :
    ofNodes (cat.renamed ρ) next ns = (ofNodes cat next ns).map (rename ρ) :=
  match ns with
  | [] => rfl
  | n :: ns => by
    rw [ofNodes, ofNodes, List.map_cons, ofNode_renamed, params_rename, ofNodes_renamed]

end

end Clause

/-- A text does not change where each column is called by what is written for it. -/
theorem render_rename_shown (d : Dialect) (tokens : List Token) :
    d.render (tokens.map (Token.rename Value.shown)) = d.render tokens := by
  induction tokens with
  | nil => rfl
  | cons t ts ih =>
    rw [List.map_cons, Dialect.render_cons, Dialect.render_cons, ih]
    cases t <;> rfl

end Sql

end Cohort
