import Cohort.Catalog.Bundled
import Cohort.Proofs.Sql.Rendering
import Mathlib.Data.List.Basic

/-!
# Slots and parameters are aligned

The slots of a template are numbered from one without gaps, in the order in
which they stand, and there are as many as there are parameters.  All that a
dialect can change is how the one template is rendered.  The parameters are
those that the conditions bind when each is compiled alone, and a degraded
condition might as well be an empty group.
-/

namespace Cohort.Sql

/-- The numbers of the slots, in the order in which they stand. -/
def slotNumbers (ts : List Token) : List Nat :=
  ts.filterMap fun
    | .slot n => some n
    | _ => none

@[simp] theorem slotNumbers_append (ts us : List Token) :
    slotNumbers (ts ++ us) = slotNumbers ts ++ slotNumbers us := List.filterMap_append

/-- The words of the language that clauses are made of. -/
def vocabulary : List String :=
  ["(", ")", "NOT (", "TRUE", "FALSE", " AND ", " OR ", " ", ", ", "=", "!=", ">", ">=", "<", "<=",
   " BETWEEN ", " IN (", " NOT IN (", " IS NOT NULL", " IS NULL", " = true", " = false",
   "earth_distance(ll_to_earth(", "), ", ") <= ", " * 1000"]

/-- Whether a token can stand in the templates of a catalog: its words are words of the language,
and its column is the mapper of a field. -/
def Token.IsOf (cat : Catalog) : Token → Prop
  | .words s => s ∈ vocabulary
  | .column name => ∃ f ∈ cat.fields, f.column = name
  | .likeWord => True
  | .slot _ => True

namespace Clause

/-! ## Numbering -/

/-- The slots of a clause are numbered from `next` on, one for each parameter. -/
def NumberedFrom (next : Nat) (c : Clause) : Prop :=
  slotNumbers c.tokens = List.range' next c.params.length

theorem NumberedFrom.negateIf {next : Nat} {c : Clause} (h : c.NumberedFrom next)
    (negated : Bool) : (c.negateIf negated).NumberedFrom next := by
  cases negated with
  | false => exact h
  | true => simpa [NumberedFrom, Clause.negateIf, negate, slotNumbers] using h

/-- A list of slots has the numbers from `next` on. -/
theorem slotNumbers_slotList (next count : Nat) :
    slotNumbers (slotList next count) = List.range' next count := by
  induction count generalizing next with
  | zero => rfl
  | succ count ih =>
    cases count with
    | zero => rfl
    | succ k =>
      rw [List.range'_succ, ← ih]
      rfl

theorem numberedFrom_compare (column : Value) {sign : Token} (next : Nat) (v : Value)
    (h : slotNumbers [sign] = []) : (compare column sign next v).NumberedFrom next := by
  cases sign <;> first | rfl | cases h

theorem numberedFrom_member (negated : Bool) (column : Value) (next : Nat) (v : Value) :
    (member negated column next v).NumberedFrom next := by
  unfold member
  cases v.sequence? with
  | none => exact numberedFrom_compare column next v rfl
  | some items =>
    cases items with
    | nil => cases negated <;> rfl
    | cons w ws =>
      have h := slotNumbers_slotList next (w :: ws).length
      simpa [NumberedFrom, slotNumbers] using h

/-- Every test numbers its slots from the number it is handed, one for each of its parameters. -/
theorem numberedFrom_ofTest (op : Operator) (column : Value) (next : Nat) (v : Value) :
    (ofTest op column next v).NumberedFrom next := by
  cases op
  case between => simp only [ofTest, between]; split <;> rfl
  case withinRadius => simp only [ofTest, withinRadius]; split <;> rfl
  case isIn => exact numberedFrom_member false column next v
  case notIn => exact numberedFrom_member true column next v
  all_goals rfl

/-- A condition without a clause has no slots, and no parameters. -/
theorem numberedFrom_ofCondition (cat : Catalog) (next : Nat) (c : Condition) :
    (ofCondition cat next c).NumberedFrom next := by
  rcases ofCondition_cases cat c with ⟨_, -, h⟩ | ⟨f, op, -, -, -, -, -, h⟩
  · rw [h]
    rfl
  · rw [h]
    exact (numberedFrom_ofTest op f.column next c.value).negateIf c.negated

/-- A connective adds no slots to those of the clauses it joins. -/
theorem slotNumbers_join (op : Connective) (cs : List Clause) :
    slotNumbers (join op cs).tokens = cs.flatMap fun c => slotNumbers c.tokens := by
  induction cs with
  | nil => rfl
  | cons c cs ih =>
    cases cs with
    | nil => simp [join, slotNumbers]
    | cons d ds =>
      rw [List.flatMap_cons, ← ih]
      simp [join, slotNumbers]

mutual

/-- The slots of a node are numbered through, in the order of its parameters. -/
theorem numberedFrom_ofNode (cat : Catalog) (next : Nat) (n : Node) :
    (ofNode cat next n).NumberedFrom next :=
  match n with
  | .condition c => numberedFrom_ofCondition cat next c
  | .group op cs negated => by
    refine NumberedFrom.negateIf ?_ negated
    rw [NumberedFrom, slotNumbers_join, params_join]
    exact slotNumbers_ofNodes cat next cs

/-- The numbers run on from clause to clause. -/
theorem slotNumbers_ofNodes (cat : Catalog) (next : Nat) (ns : List Node) :
    ((ofNodes cat next ns).flatMap fun c => slotNumbers c.tokens) =
      List.range' next ((ofNodes cat next ns).flatMap params).length :=
  match ns with
  | [] => rfl
  | n :: ns => by
    have hn := numberedFrom_ofNode cat next n
    have hns := slotNumbers_ofNodes cat (next + (ofNode cat next n).params.length) ns
    rw [NumberedFrom] at hn
    rw [ofNodes, List.flatMap_cons, List.flatMap_cons, hn, hns, List.length_append,
      List.range'_append_1]

end

/-! ## Tokens -/

/-- Every token of a clause can stand in the templates of a catalog. -/
def IsOf (cat : Catalog) (c : Clause) : Prop := ∀ t ∈ c.tokens, t.IsOf cat

variable {cat : Catalog}

theorem isOf_always : always.IsOf cat := by
  simp [IsOf, always, ofWords, Token.IsOf, vocabulary]

theorem IsOf.parenthesized {c : Clause} (h : c.IsOf cat) : c.parenthesized.IsOf cat := by
  intro t ht
  rw [tokens_parenthesized, List.mem_append, List.mem_cons, List.mem_singleton] at ht
  rcases ht with (rfl | ht) | rfl
  · exact List.mem_cons_self
  · exact h t ht
  · exact List.mem_cons_of_mem _ List.mem_cons_self

theorem IsOf.negateIf {c : Clause} (h : c.IsOf cat) (negated : Bool) :
    (c.negateIf negated).IsOf cat := by
  cases negated with
  | false => exact h
  | true =>
    intro t ht
    rw [Clause.negateIf, if_pos rfl, negate, List.mem_append, List.mem_cons,
      List.mem_singleton] at ht
    rcases ht with (rfl | ht) | rfl
    · exact (by decide : "NOT (" ∈ vocabulary)
    · exact h t ht
    · exact (by decide : ")" ∈ vocabulary)

theorem isOf_slotList (next count : Nat) : ∀ t ∈ slotList next count, t.IsOf cat := by
  induction count generalizing next with
  | zero => simp [slotList]
  | succ count ih =>
    cases count with
    | zero => simp [slotList, Token.IsOf]
    | succ k =>
      intro t ht
      rw [slotList, List.mem_cons, List.mem_cons] at ht
      rcases ht with rfl | rfl | ht
      · trivial
      · exact (by decide : ", " ∈ vocabulary)
      · exact ih (next + 1) t ht

section Tests

variable {column : Value} (hc : ∃ f ∈ cat.fields, f.column = column)

include hc

theorem isOf_compare {sign : Token} (hs : sign.IsOf cat) (next : Nat) (v : Value) :
    (compare column sign next v).IsOf cat := by
  simpa [IsOf, compare, Token.IsOf, vocabulary, hc] using hs

theorem isOf_member (negated : Bool) (next : Nat) (v : Value) :
    (member negated column next v).IsOf cat := by
  unfold member
  cases v.sequence? with
  | none =>
    exact isOf_compare hc (by cases negated <;> simp [Token.IsOf, vocabulary]) next v
  | some items =>
    cases items with
    | nil => cases negated <;> simp [IsOf, always, never, ofWords, Token.IsOf, vocabulary]
    | cons w ws =>
      intro t ht
      rw [List.mem_append, List.mem_cons, List.mem_cons, List.mem_singleton] at ht
      rcases ht with (rfl | rfl | ht) | rfl
      · exact hc
      · cases negated <;> simp [Token.IsOf, vocabulary]
      · exact isOf_slotList next _ t ht
      · simp [Token.IsOf, vocabulary]

/-- A test is made of words of the language, its slots and the column it is handed. -/
theorem isOf_ofTest (op : Operator) (next : Nat) (v : Value) :
    (ofTest op column next v).IsOf cat := by
  cases op
  case between =>
    simp only [ofTest, between]
    split
    · simp [IsOf, Token.IsOf, vocabulary, hc]
    · exact isOf_always
  case withinRadius =>
    simp only [ofTest, withinRadius]
    split
    · simp [IsOf, Token.IsOf, vocabulary, hc]
    · exact isOf_always
  case isIn => exact isOf_member hc false next v
  case notIn => exact isOf_member hc true next v
  case present | absent | isTrue | isFalse =>
    simp [IsOf, ofTest, constant, Token.IsOf, vocabulary, hc]
  case matchText | matchAny => exact isOf_always
  case contains | containsAnyCase | startsWith | endsWith =>
    exact isOf_compare hc (show Token.likeWord.IsOf cat from trivial) next _
  all_goals exact isOf_compare hc (by simp [Token.IsOf, vocabulary]) next v

end Tests

theorem isOf_ofCondition (cat : Catalog) (next : Nat) (c : Condition) :
    (ofCondition cat next c).IsOf cat := by
  rcases ofCondition_cases cat c with ⟨_, -, h⟩ | ⟨f, op, hf, -, -, -, -, h⟩
  · rw [h]
    exact isOf_always
  · rw [h]
    exact (isOf_ofTest ⟨f, Catalog.mem_fields_of_find? hf, rfl⟩ op next c.value).negateIf _

theorem isOf_join (op : Connective) {cs : List Clause} (h : ∀ c ∈ cs, c.IsOf cat) :
    (join op cs).IsOf cat := by
  induction cs with
  | nil => exact isOf_always
  | cons c cs ih =>
    obtain ⟨hc, hcs⟩ := List.forall_mem_cons.mp h
    cases cs with
    | nil => exact hc.parenthesized
    | cons e es =>
      intro t ht
      rw [join, List.mem_append, List.mem_cons] at ht
      rcases ht with ht | rfl | ht
      · exact hc.parenthesized t ht
      · cases op <;> simp [Connective.word, Token.IsOf, vocabulary]
      · exact ih hcs t ht

mutual

/-- The clause of a node names only columns of the catalog, whatever the node holds. -/
theorem isOf_ofNode (cat : Catalog) (next : Nat) (n : Node) : (ofNode cat next n).IsOf cat :=
  match n with
  | .condition c => isOf_ofCondition cat next c
  | .group op cs negated => (isOf_join op (isOf_ofNodes cat next cs)).negateIf negated

theorem isOf_ofNodes (cat : Catalog) (next : Nat) (ns : List Node) :
    ∀ c ∈ ofNodes cat next ns, c.IsOf cat :=
  match ns with
  | [] => by simp [ofNodes]
  | n :: ns => by
    rw [ofNodes, List.forall_mem_cons]
    exact ⟨isOf_ofNode cat next n, isOf_ofNodes cat _ ns⟩

end

/-! ## Parameters -/

/-- The parameters that a condition binds do not depend on the numbers of its slots. -/
theorem params_ofTest (op : Operator) (column : Value) (next next' : Nat) (v : Value) :
    (ofTest op column next v).params = (ofTest op column next' v).params := by
  cases op
  case between => simp only [ofTest, between]; split <;> rfl
  case withinRadius => simp only [ofTest, withinRadius]; split <;> rfl
  case isIn | notIn => simp only [ofTest, member]; split <;> rfl
  all_goals rfl

/-- The parameters of a condition do not depend on where the numbers of its slots start. -/
theorem params_ofCondition (cat : Catalog) (next next' : Nat) (c : Condition) :
    (ofCondition cat next c).params = (ofCondition cat next' c).params := by
  rcases ofCondition_cases cat c with ⟨_, -, h⟩ | ⟨f, op, -, -, -, -, -, h⟩
  · rw [h, h]
  · rw [h, h, params_negateIf, params_negateIf, params_ofTest op f.column next next']

mutual

/-- The parameters of a node are those of its conditions, one condition after the other. -/
theorem params_ofNode (cat : Catalog) (next : Nat) (n : Node) :
    (ofNode cat next n).params = n.leaves.flatMap fun c => (ofCondition cat 1 c).params :=
  match n with
  | .condition c => by simpa [ofNode] using params_ofCondition cat next 1 c
  | .group op cs negated => by
    rw [ofNode, params_negateIf, params_join, params_ofNodes, Node.leaves_group]

theorem params_ofNodes (cat : Catalog) (next : Nat) (ns : List Node) :
    (ofNodes cat next ns).flatMap params =
      (ns.flatMap Node.leaves).flatMap fun c => (ofCondition cat 1 c).params :=
  match ns with
  | [] => rfl
  | n :: ns => by
    rw [ofNodes, List.flatMap_cons, List.flatMap_cons, List.flatMap_append, params_ofNode,
      params_ofNodes]

end

/-! ## Degraded conditions -/

mutual

/-- Grafts that have the clauses of the conditions they replace change no clause. -/
theorem ofNode_graft {f : Condition → Node}
    (hf : ∀ c next, ofNode cat next (f c) = ofCondition cat next c) (next : Nat) (n : Node) :
    ofNode cat next (n.graft f) = ofNode cat next n :=
  match n with
  | .condition c => hf c next
  | .group op cs negated => by rw [Node.graft, ofNode, ofNode, ofNodes_graftAll hf]

theorem ofNodes_graftAll {f : Condition → Node}
    (hf : ∀ c next, ofNode cat next (f c) = ofCondition cat next c) (next : Nat)
    (ns : List Node) : ofNodes cat next (Node.graftAll f ns) = ofNodes cat next ns :=
  match ns with
  | [] => rfl
  | n :: ns => by
    rw [Node.graftAll, ofNodes, ofNodes, ofNode_graft hf, ofNodes_graftAll hf]

end

end Clause

def Compilation.params (c : Compilation) : List Value :=
  match c.query with
  | .ok q => q.params
  | .error _ => []

/-- A condition that has a clause, and the empty group in the place of one that has none. -/
def blank (cat : Catalog) (c : Condition) : Node :=
  if isLowered cat c then .condition c else .group .and [] false

/-- What stands in for a condition has the clause of the condition. -/
theorem ofNode_blank (cat : Catalog) (c : Condition) (next : Nat) :
    Clause.ofNode cat next (blank cat c) = Clause.ofCondition cat next c := by
  unfold blank isLowered
  rcases Clause.ofCondition_cases cat c with ⟨_, hd, h⟩ | ⟨_, _, -, -, -, -, hd, h⟩
  · simp [hd, h, Clause.ofNode, Clause.ofNodes, Clause.join, Clause.negateIf]
  · simp [hd, Clause.ofNode]

/-- An expression of one condition adds parentheses and nothing else. -/
theorem ofExpression_alone (cat : Catalog) (c : Condition) :
    Clause.ofExpression cat (.alone c) = (Clause.ofCondition cat 1 c).parenthesized := by
  simp [Clause.ofExpression, Expression.alone, Expression.toNode, Clause.ofNode, Clause.ofNodes,
    Clause.join, Clause.negateIf]

theorem hindrance?_alone (d : Dialect) (cat : Catalog) (c : Condition) :
    hindrance? d cat (.alone c) = obstacle? d cat c := by
  rw [hindrance?, Expression.leaves_alone]
  cases h : obstacle? d cat c with
  | none => rw [List.findSome?_cons, h, List.findSome?_nil]
  | some m => rw [List.findSome?_cons, h]

/-- A condition alone leads to its own clause in parentheses. -/
theorem query_compile_alone {d : Dialect} {cat : Catalog} {c : Condition}
    (hc : obstacle? d cat c = none) :
    (compile d cat (.alone c)).query =
      .ok ⟨"(" ++ d.render (Clause.ofCondition cat 1 c).tokens ++ ")",
        (Clause.ofCondition cat 1 c).params⟩ := by
  rw [compile_eq, hindrance?_alone, hc, ofExpression_alone]
  simp [Dialect.token, String.append_assoc]

/-- A condition that meets no misuse binds the parameters of its clause. -/
theorem params_compile_alone {d : Dialect} {cat : Catalog} {c : Condition}
    (hc : obstacle? d cat c = none) :
    (compile d cat (.alone c)).params = (Clause.ofCondition cat 1 c).params := by
  rw [Compilation.params, query_compile_alone hc]

/-- A degraded condition alone is TRUE in parentheses, and binds nothing. -/
theorem compile_alone_of_degraded {d : Dialect} {cat : Catalog} {c : Condition}
    (hc : obstacle? d cat c = none) {r : Degradation} (h : degradation? cat c = some r) :
    (compile d cat (.alone c)).query = .ok ⟨"(TRUE)", []⟩ := by
  rw [query_compile_alone hc]
  rcases Clause.ofCondition_cases cat c with ⟨_, -, htrue⟩ | ⟨_, _, -, -, -, -, hd, -⟩
  · simp [htrue, Clause.always, Clause.ofWords, Dialect.token]
  · cases h.symm.trans hd

/-- What is kept as degraded belongs to a condition of the list, with the reason of that condition.
-/
theorem mem_degradations {cat : Catalog} {cs : List Condition} {o : Omission Degradation}
    (h : o ∈ degradations cat cs) :
    o.condition ∈ cs ∧ degradation? cat o.condition = some o.reason := by
  obtain ⟨c, hc, ho⟩ := List.mem_filterMap.mp h
  obtain ⟨rfl, hd, -⟩ := omission?_eq_some_iff.mp ho
  exact ⟨hc, hd⟩

/-- What is found degraded is a condition of the expression that has no clause. -/
theorem mem_leaves_of_mem_degraded {d : Dialect} {cat : Catalog} {e : Expression}
    {o : Omission Degradation} (ho : o ∈ (compile d cat e).degraded) :
    o.condition ∈ e.leaves ∧ degradation? cat o.condition = some o.reason := by
  rw [compile_eq] at ho
  obtain ⟨hmem, hd⟩ := mem_degradations ho
  exact ⟨List.takeWhile_subset _ hmem, hd⟩

/-- What is bound is bound by some condition of the expression. -/
theorem exists_of_mem_params {d : Dialect} {cat : Catalog} {e : Expression} {q : Query}
    (hq : (compile d cat e).query = .ok q) {p : Value} (hp : p ∈ q.params) :
    ∃ c ∈ e.leaves, p ∈ (Clause.ofCondition cat 1 c).params := by
  rw [compile_eq] at hq
  cases hhindrance : hindrance? d cat e with
  | none =>
    rw [hhindrance] at hq
    cases hq
    rw [Clause.ofExpression, Clause.params_ofNode] at hp
    exact List.mem_flatMap.mp hp
  | some m =>
    rw [hhindrance] at hq
    cases hq

/-- No misuse is added where the conditions are replaced by what stands in for them. -/
theorem hindrance?_graft_blank {d : Dialect} {cat : Catalog} {e : Expression}
    (h : hindrance? d cat e = none) : hindrance? d cat (e.graft (blank cat)) = none := by
  rw [hindrance?, List.findSome?_eq_none_iff, Expression.leaves_graft]
  intro c' hc'
  obtain ⟨c, hc, hc'⟩ := List.mem_flatMap.mp hc'
  unfold blank at hc'
  split at hc'
  · rw [Node.leaves_condition, List.mem_singleton] at hc'
    exact hc' ▸ obstacle?_of_hindrance? h c hc
  · cases hc'

/-- Empty groups in the places of the conditions that have no clause lead to the same query. -/
theorem query_compile_graft_blank {d : Dialect} {cat : Catalog} {e : Expression}
    (h : hindrance? d cat e = none) :
    (compile d cat (e.graft (blank cat))).query = (compile d cat e).query := by
  rw [compile_eq, compile_eq, h, hindrance?_graft_blank h, Clause.ofExpression,
    Clause.ofExpression, Expression.toNode_graft, Clause.ofNode_graft (ofNode_blank cat)]

/-- There is one template for an expression, with slots numbered from one without gaps, in order,
one for each parameter.  Every dialect renders this template with the same parameters, unless it
meets a column, a pattern or a warning that cannot be written: then it fails with the first of these
misuses.  The parameters are those that the conditions bind alone, in order.  The degraded
conditions are those without a clause; alone they are TRUE and bind nothing, and empty groups in
their places give the same query. -/
theorem exists_template (cat : Catalog) (e : Expression) :
    ∃ (ts : List Token) (ps : List Value),
      slotNumbers ts = List.range' 1 ps.length ∧
      (∀ t ∈ ts, t.IsOf cat) ∧
      ∀ d : Dialect,
        (compile d cat e).query =
          (match hindrance? d cat e with
            | none => .ok ⟨d.render ts, ps⟩
            | some m => .error m) ∧
        (hindrance? d cat e = none →
          ps = e.leaves.flatMap (fun c => (compile d cat (.alone c)).params) ∧
          (compile d cat e).degraded.map (·.condition) = e.leaves.filter (!isLowered cat ·) ∧
          (∀ o ∈ (compile d cat e).degraded,
            (compile d cat (.alone o.condition)).query = .ok ⟨"(TRUE)", []⟩) ∧
          (compile d cat (e.graft (blank cat))).query = (compile d cat e).query) := by
  refine ⟨(Clause.ofExpression cat e).tokens, (Clause.ofExpression cat e).params,
    Clause.numberedFrom_ofNode cat 1 e.toNode, Clause.isOf_ofNode cat 1 e.toNode, fun d => ⟨?_, ?_⟩⟩
  · exact congrArg Compilation.query (compile_eq d cat e)
  intro h
  have hleaf := obstacle?_of_hindrance? h
  have hwritable : ∀ c ∈ e.leaves, isWritable d cat c = true :=
    List.all_eq_true.mp (all_isWritable_iff.mpr h)
  have hdegraded : (compile d cat e).degraded = degradations cat e.leaves := by
    rw [compile_eq, List.takeWhile_eq_self_iff.mpr hwritable]
  refine ⟨?_, ?_, ?_, query_compile_graft_blank h⟩
  · rw [Clause.ofExpression, Clause.params_ofNode]
    exact List.flatMap_congr fun c hc => (params_compile_alone (hleaf c hc)).symm
  · rw [hdegraded, map_condition_degradations hwritable]
  · intro o ho
    obtain ⟨hmem, hd⟩ := mem_leaves_of_mem_degraded ho
    exact compile_alone_of_degraded (hleaf o.condition hmem) hd

theorem exists_template_preview :
    let e : Expression := {
      children := [
        .condition { field := .text "intent.topics", operator := .text "in",
                     value := .list [.text "ai", .text "sales"], negated := true },
        .group .or [
          .condition { field := .text "business.shoe_size", operator := .text "eq" },
          .condition { field := .text "intent.score", operator := .text "between",
                       value := .tuple [.int 1, .int 5] }] true] }
    ∃ (ts : List Token) (ps : List Value),
      slotNumbers ts = List.range' 1 ps.length ∧
      (compile .preview .bundled e).query = .ok ⟨Dialect.preview.render ts, ps⟩ ∧
      ps = e.leaves.flatMap (fun c => (compile .preview .bundled (.alone c)).params) := by
  intro e
  obtain ⟨ts, ps, hnumbers, -, h⟩ := exists_template .bundled e
  have hnone : hindrance? .preview .bundled e = none := by decide
  have hq := (h .preview).1
  rw [hnone] at hq
  exact ⟨ts, ps, hnumbers, hq, ((h .preview).2 hnone).1⟩

/-- A catalog with one field, whose column is no text. -/
def numberedColumn : Catalog where
  fields := [{
    key := .text "a"
    label := .text "a"
    category := .business
    shape := .number
    operators := [.eq]
    column := .int 5
    searchPath := .null
    choices := none
    description := .text "" }]

/-- Columns that are no texts cannot be quoted, so not every dialect renders the template. -/
theorem not_exists_template_numberedColumn :
    let e := Expression.alone { field := .text "a", operator := .text "eq", value := .int 1 }
    ¬∃ (ts : List Token) (ps : List Value), ∀ d : Dialect,
      (compile d numberedColumn e).query = .ok ⟨d.render ts, ps⟩ := by
  rintro e ⟨ts, ps, h⟩
  have hq : (compile .preview numberedColumn e).query = .error .part := rfl
  cases hq.symm.trans (h .preview)

end Cohort.Sql
