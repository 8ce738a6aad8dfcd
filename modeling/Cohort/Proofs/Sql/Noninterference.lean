import Cohort.Catalog.Bundled
import Cohort.Proofs.Sql.Rendering
import Mathlib.Data.List.Forall2

/-!
# No value reaches the text

Two expressions are alike if they differ in values of the same form, in the
conditions on fields that are not registered, and in the categories.  Alike
expressions have the same template, so they are compiled to the same text: what
a value is can change the parameters alone.
-/

namespace Cohort.Sql

/-! ## Forms of values -/

/-- What a clause can show of a value. -/
inductive Form where
  | sequence (length : Nat)
  /-- A map with a point and a radius. -/
  | disc
  | other
  deriving DecidableEq, Repr

def form (v : Value) : Form :=
  match v.sequence? with
  | some items => .sequence items.length
  | none => if fits .withinRadius v then .disc else .other

/-- A sequence is no circle. -/
theorem fits_withinRadius_of_sequence {v : Value} {items : List Value}
    (h : v.sequence? = some items) : fits .withinRadius v = false := by
  cases v <;> first | rfl | cases h

/-- Values of the same form are sequences of the same length, or no sequences and both fit for a
test of the distance or not. -/
theorem form_eq_cases {v v' : Value} (h : form v = form v') :
    (∃ xs ys, v.sequence? = some xs ∧ v'.sequence? = some ys ∧ xs.length = ys.length) ∨
    (v.sequence? = none ∧ v'.sequence? = none ∧ fits .withinRadius v = fits .withinRadius v') := by
  unfold form at h
  cases hv : v.sequence? with
  | some xs =>
    cases hv' : v'.sequence? with
    | some ys => exact .inl ⟨xs, ys, rfl, rfl, by simpa [hv, hv'] using h⟩
    | none =>
      simp only [hv, hv'] at h
      split at h <;> cases h
  | none =>
    cases hv' : v'.sequence? with
    | some ys =>
      simp only [hv, hv'] at h
      split at h <;> cases h
    | none =>
      refine .inr ⟨rfl, rfl, ?_⟩
      simp only [hv, hv'] at h
      cases hd : fits .withinRadius v <;> cases hd' : fits .withinRadius v'
      all_goals simp [hd, hd'] at h ⊢

/-- Whether a value fits an operator depends on its form alone. -/
theorem fits_eq_of_form {v v' : Value} (h : form v = form v') (op : Operator) :
    fits op v = fits op v' := by
  rcases form_eq_cases h with ⟨xs, ys, hv, hv', hlength⟩ | ⟨hv, hv', hdisc⟩
  · cases op
    case between => simp [fits, hv, hv', hlength]
    case withinRadius =>
      -- a sequence is no map, whatever its items are
      rw [fits_withinRadius_of_sequence hv, fits_withinRadius_of_sequence hv']
    all_goals rfl
  · cases op
    case between => simp [fits, hv, hv']
    case withinRadius => exact hdisc
    all_goals rfl

/-- Two clauses have the same tokens, and as many parameters. -/
structure Clause.SameText (c c' : Clause) : Prop where
  tokens : c.tokens = c'.tokens
  length : c.params.length = c'.params.length

namespace Clause

theorem SameText.refl (c : Clause) : c.SameText c := ⟨rfl, rfl⟩

theorem SameText.negateIf {c c' : Clause} (h : c.SameText c') (negated : Bool) :
    (c.negateIf negated).SameText (c'.negateIf negated) := by
  refine ⟨?_, by simpa using h.length⟩
  cases negated
  · exact h.tokens
  · simp [Clause.negateIf, negate, h.tokens]

theorem sameText_compare (column : Value) (sign : Token) (next : Nat) (v v' : Value) :
    (compare column sign next v).SameText (compare column sign next v') := ⟨rfl, rfl⟩

/-- The text of a membership test depends on how many items there are, not on the items. -/
theorem sameText_member {v v' : Value} (h : form v = form v') (negated : Bool) (column : Value)
    (next : Nat) :
    (member negated column next v).SameText (member negated column next v') := by
  rcases form_eq_cases h with ⟨xs, ys, hv, hv', hlength⟩ | ⟨hv, hv', -⟩
  · simp only [member, hv, hv']
    cases xs <;> cases ys <;> try cases hlength
    · exact .refl _
    · exact ⟨by simp only [hlength], hlength⟩
  · simp only [member, hv, hv']
    exact sameText_compare column _ next v v'

/-- The text of a test that a value fits depends on the form of the value alone. -/
theorem sameText_ofTest {v v' : Value} (h : form v = form v') {op : Operator}
    (hfits : fits op v = true) (column : Value) (next : Nat) :
    (ofTest op column next v).SameText (ofTest op column next v') := by
  have hfits' : fits op v' = true := by rw [← fits_eq_of_form h, hfits]
  cases op
  case between =>
    obtain ⟨low, high, hv⟩ := fits_between_iff.mp hfits
    obtain ⟨low', high', hv'⟩ := fits_between_iff.mp hfits'
    simp only [ofTest, between, hv, hv']
    exact ⟨rfl, rfl⟩
  case withinRadius =>
    obtain ⟨lat, lng, radius, hlat, hlng, hradius⟩ := fits_withinRadius_iff.mp hfits
    obtain ⟨lat', lng', radius', hlat', hlng', hradius'⟩ := fits_withinRadius_iff.mp hfits'
    simp only [ofTest, withinRadius, hlat, hlng, hradius, hlat', hlng', hradius']
    exact ⟨rfl, rfl⟩
  case isIn => exact sameText_member h false column next
  case notIn => exact sameText_member h true column next
  all_goals exact ⟨rfl, rfl⟩

end Clause

/-! ## Alike trees -/

/-- Two conditions are alike: both are on fields that are not registered, or they differ in their
values alone, which have the same form, and in their categories. -/
def AlikeCondition (cat : Catalog) (c c' : Condition) : Prop :=
  (cat.find? c.field = none ∧ cat.find? c'.field = none) ∨
  (c.field = c'.field ∧ c.operator = c'.operator ∧ c.negated = c'.negated ∧
    form c.value = form c'.value)

mutual

/-- Two trees are alike: the same groups, and conditions that are alike. -/
def Alike (cat : Catalog) : Node → Node → Prop
  | .condition c, .condition c' => AlikeCondition cat c c'
  | .group op cs negated, .group op' cs' negated' =>
    op = op' ∧ negated = negated' ∧ AlikeAll cat cs cs'
  | _, _ => False

def AlikeAll (cat : Catalog) : List Node → List Node → Prop
  | [], [] => True
  | n :: ns, n' :: ns' => Alike cat n n' ∧ AlikeAll cat ns ns'
  | _, _ => False

end

/-- Conditions that are alike have the same operator on the same column. -/
theorem target_eq_of_alike {cat : Catalog} {c c' : Condition} (h : AlikeCondition cat c c') :
    target cat c = target cat c' := by
  rcases h with ⟨hc, hc'⟩ | ⟨hfield, hoperator, -, -⟩
  · rw [target, hc, target, hc']
  · rw [target, hfield, hoperator, target]

/-- Conditions that are alike have clauses of the same text. -/
theorem sameText_ofCondition {cat : Catalog} {c c' : Condition} (h : AlikeCondition cat c c')
    (next : Nat) :
    (Clause.ofCondition cat next c).SameText (Clause.ofCondition cat next c') := by
  have htarget := target_eq_of_alike h
  rcases h with ⟨hc, hc'⟩ | ⟨-, -, hnegated, hform⟩
  · simp only [Clause.ofCondition, target, hc, hc']
    exact .refl _
  · unfold Clause.ofCondition
    rw [htarget]
    split
    · exact .refl _
    · rw [← fits_eq_of_form hform, hnegated]
      split
      case isTrue hfits => exact (Clause.sameText_ofTest hform hfits _ next).negateIf _
      case isFalse => exact .refl _

/-- Nothing but a column and values with too many digits can be in the way of a compilation. -/
theorem obstacle?_cases (d : Dialect) (cat : Catalog) (c : Condition) :
    obstacle? d cat c = none ∨ obstacle? d cat c = some .value ∨
    ∃ op name m, target cat c = .ok (op, name) ∧ d.column name = .error m := by
  have hdigits (p : Bool) : (if p then none else some Misuse.value) = none ∨
      (if p then none else some Misuse.value) = some .value := by
    cases p
    · exact .inr rfl
    · exact .inl rfl
  rcases target_cases cat c with ⟨r, ht, -⟩ | ⟨f, op, ht, -⟩
  · rw [obstacle?_of_error ht]
    exact (hdigits _).imp_right .inl
  · cases hcolumn : d.column f.column with
    | ok column =>
      rw [obstacle?_of_column ht hcolumn]
      exact (hdigits _).imp_right .inl
    | error m => exact .inr (.inr ⟨op, f.column, m, ht, hcolumn⟩)

/-- Alike conditions have the same obstacle, but for values with too many digits. -/
theorem obstacle?_eq_of_alike {cat : Catalog} {c c' : Condition} (h : AlikeCondition cat c c')
    {d : Dialect} (hc : obstacle? d cat c ≠ some .value) (hc' : obstacle? d cat c' ≠ some .value) :
    obstacle? d cat c = obstacle? d cat c' := by
  have htarget := target_eq_of_alike h
  rcases obstacle?_cases d cat c with hnone | hvalue | ⟨op, name, m, ht, hm⟩
  · rcases obstacle?_cases d cat c' with hnone' | hvalue' | ⟨op, name, m, ht', hm⟩
    · rw [hnone, hnone']
    · exact absurd hvalue' hc'
    · rw [obstacle?_of_misuse ht' hm, obstacle?_of_misuse (htarget.trans ht') hm]
  · exact absurd hvalue hc
  · rw [obstacle?_of_misuse ht hm, obstacle?_of_misuse (htarget.symm.trans ht) hm]

theorem Clause.sameText_join (op : Connective) {cs cs' : List Clause}
    (h : List.Forall₂ SameText cs cs') : (join op cs).SameText (join op cs') := by
  induction h with
  | nil => exact .refl _
  | @cons c c' cs cs' hc hcs ih =>
    refine ⟨?_, ?_⟩
    · cases hcs with
      | nil => simp [join, hc.tokens]
      | cons hd hds => simp [join, hc.tokens, ih.tokens]
    · have hlength := ih.length
      rw [params_join, params_join] at hlength ⊢
      rw [List.flatMap_cons, List.flatMap_cons, List.length_append, List.length_append, hc.length,
        hlength]

section Nodes

variable {cat : Catalog}

mutual

/-- Alike trees have clauses that differ in their parameters alone. -/
theorem sameText_ofNode {n n' : Node} (h : Alike cat n n') (next : Nat) :
    (Clause.ofNode cat next n).SameText (Clause.ofNode cat next n') :=
  match n, n' with
  | .condition c, .condition c' => sameText_ofCondition h next
  | .group op cs negated, .group op' cs' negated' => by
    rw [Alike] at h
    obtain ⟨rfl, rfl, hcs⟩ := h
    exact (Clause.sameText_join op (sameText_ofNodes hcs next)).negateIf negated

theorem sameText_ofNodes {ns ns' : List Node} (h : AlikeAll cat ns ns') (next : Nat) :
    List.Forall₂ Clause.SameText (Clause.ofNodes cat next ns) (Clause.ofNodes cat next ns') :=
  match ns, ns' with
  | [], [] => .nil
  | n :: ns, n' :: ns' => by
    rw [AlikeAll] at h
    have hn := sameText_ofNode h.1 next
    rw [Clause.ofNodes, Clause.ofNodes, hn.length]
    exact .cons hn (sameText_ofNodes h.2 _)

end

mutual

/-- Trees that are alike have conditions that are alike, in the same order. -/
theorem leaves_of_alike {n n' : Node} (h : Alike cat n n') :
    List.Forall₂ (AlikeCondition cat) n.leaves n'.leaves :=
  match n, n' with
  | .condition c, .condition c' => by
    rw [Node.leaves_condition, Node.leaves_condition]
    exact .cons h .nil
  | .group op cs negated, .group op' cs' negated' => by
    rw [Alike] at h
    rw [Node.leaves_group, Node.leaves_group]
    exact leaves_of_alikeAll h.2.2

theorem leaves_of_alikeAll {ns ns' : List Node} (h : AlikeAll cat ns ns') :
    List.Forall₂ (AlikeCondition cat) (ns.flatMap Node.leaves) (ns'.flatMap Node.leaves) :=
  match ns, ns' with
  | [], [] => .nil
  | n :: ns, n' :: ns' => by
    rw [AlikeAll] at h
    rw [List.flatMap_cons, List.flatMap_cons]
    exact List.rel_append (leaves_of_alike h.1) (leaves_of_alikeAll h.2)

end

/-- Conditions that are alike meet the same misuse, those of writing a value left aside. -/
theorem findSome?_eq_of_alike {d : Dialect} {cs cs' : List Condition}
    (h : List.Forall₂ (AlikeCondition cat) cs cs')
    (hcs : cs.findSome? (obstacle? d cat) ≠ some .value)
    (hcs' : cs'.findSome? (obstacle? d cat) ≠ some .value) :
    cs.findSome? (obstacle? d cat) = cs'.findSome? (obstacle? d cat) := by
  induction h with
  | nil => rfl
  | @cons c c' cs cs' hc _ ih =>
    rw [List.findSome?_cons] at hcs hcs' ⊢
    rw [List.findSome?_cons]
    have hhere : obstacle? d cat c ≠ some .value := by
      intro hvalue
      exact hcs (by rw [hvalue])
    have hhere' : obstacle? d cat c' ≠ some .value := by
      intro hvalue
      exact hcs' (by rw [hvalue])
    rw [← obstacle?_eq_of_alike hc hhere hhere'] at hcs' ⊢
    cases ho : obstacle? d cat c with
    | some m => rfl
    | none =>
      rw [ho] at hcs hcs'
      exact ih hcs hcs'

end Nodes

/-- There is one text that alike expressions are compiled to, unless they fail, and they fail alike
unless a value that is written for one of them has too many digits. -/
theorem text_eq_of_alike {cat : Catalog} {e e' : Expression} (h : Alike cat e.toNode e'.toNode)
    (d : Dialect) :
    ∃ text : String,
      (compile d cat e).query.map (·.text) =
        (match hindrance? d cat e with | none => .ok text | some m => .error m) ∧
      (compile d cat e').query.map (·.text) =
        (match hindrance? d cat e' with | none => .ok text | some m => .error m) ∧
      (hindrance? d cat e ≠ some .value → hindrance? d cat e' ≠ some .value →
        hindrance? d cat e = hindrance? d cat e') := by
  have htokens : (Clause.ofExpression cat e).tokens = (Clause.ofExpression cat e').tokens :=
    (sameText_ofNode h 1).tokens
  refine ⟨d.render (Clause.ofExpression cat e).tokens, ?_, ?_,
    findSome?_eq_of_alike (leaves_of_alike h)⟩
  · rw [compile_eq]
    cases hindrance? d cat e <;> rfl
  · rw [compile_eq, htokens]
    cases hindrance? d cat e' <;> rfl

/-- A value that looks like a part of the language binds as any other one does. -/
theorem text_eq_of_alike_quote :
    let e : Expression := {
      children := [
        .condition { field := .text "business.company_name", operator := .text "contains",
                     value := .text "Acme" },
        .group .or [.condition { field := .text "x", operator := .text "eq" }] true] }
    let e' : Expression := {
      children := [
        .condition { field := .text "business.company_name", operator := .text "contains",
                     value := .text "') OR TRUE --", category := .text "intent" },
        .group .or [
          .condition { field := .text "') OR TRUE --", operator := .null, negated := true }] true] }
    Alike .bundled e.toNode e'.toNode ∧
      ∃ text, (compile .preview .bundled e).query.map (·.text) = .ok text ∧
        (compile .preview .bundled e').query.map (·.text) = .ok text := by
  intro e e'
  have h : Alike .bundled e.toNode e'.toNode :=
    ⟨rfl, rfl, .inr ⟨rfl, rfl, rfl, rfl⟩, ⟨rfl, rfl, .inl ⟨rfl, rfl⟩, trivial⟩, trivial⟩
  have hnone : hindrance? .preview .bundled e = none := by decide +kernel
  have hnone' : hindrance? .preview .bundled e' = none := by decide +kernel
  obtain ⟨text, htext, htext', -⟩ := text_eq_of_alike h .preview
  rw [hnone] at htext
  rw [hnone'] at htext'
  exact ⟨h, text, htext, htext'⟩

/-- A text operator takes a number too, and fails where it has too many digits: alike conditions,
one with a text and one with such a number, are not compiled alike. -/
theorem not_text_eq_of_alike_tooLong :
    let c (v : Value) : Condition := { field := .text "business.company_name",
                                       operator := .text "contains", value := v }
    let e (v : Value) : Expression := { children := [.condition (c v)] }
    Alike .bundled (e (.text "1")).toNode (e .tooLong).toNode ∧
      (compile {} .bundled (e (.text "1"))).query.map (·.text) =
        .ok "(business.company_name ILIKE ?)" ∧
      (compile {} .bundled (e .tooLong)).query.map (·.text) = .error .value := by
  intro c e
  have hcolumn : ({} : Dialect).column (.text "business.company_name") =
      .ok (.text "business.company_name") := rfl
  have htarget : target .bundled (c .tooLong) =
      .ok (.contains, .text "business.company_name") := rfl
  have hobstacle : obstacle? {} .bundled (c .tooLong) = some .value := by
    have hfits : fits .contains (c .tooLong).value = true := rfl
    rw [obstacle?_of_column htarget hcolumn, if_pos hfits]
    simp [writtenFor, emptyTest?, pattern?, c, Value.isWritable_tooLong]
  have hhindrance : hindrance? {} .bundled (e .tooLong) = some .value := by
    have hleaves : (e .tooLong).leaves = [c .tooLong] := rfl
    rw [hindrance?, hleaves, List.findSome?_cons, hobstacle]
  refine ⟨⟨rfl, rfl, .inr ⟨rfl, rfl, rfl, rfl⟩, trivial⟩, by decide +kernel, ?_⟩
  rw [compile_eq, hhindrance]
  rfl

end Cohort.Sql
