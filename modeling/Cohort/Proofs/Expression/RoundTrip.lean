import Cohort.Catalog.Bundled
import Cohort.Proofs.Expression.Grammar
import Cohort.Proofs.Expression.Leaves

/-!
# Stored expressions read back

A tree that is well formed and not nested too deeply is read back from its
stored form, but for the categories that a catalog fills in.  Nothing else is
ever read: what the reader returns is well formed, keeps to the depth, and has
no category left to fill.
-/

namespace Cohort

/-! ## Well-formed trees -/

namespace Condition

/-- The field and the operator are texts, and the category is empty or present. -/
structure IsWellFormed (c : Condition) : Prop where
  field : ∃ s, c.field = .text s
  operator : ∃ s, c.operator = .text s
  category : c.category = .text "" ∨ c.category.truthy = true

/-- The field and the operator are texts. -/
structure IsStorable (c : Condition) : Prop where
  field : ∃ s, c.field = .text s
  operator : ∃ s, c.operator = .text s

/-- A well-formed condition can be stored. -/
theorem IsWellFormed.isStorable {c : Condition} (h : c.IsWellFormed) : c.IsStorable :=
  ⟨h.field, h.operator⟩

/-- The condition with the category of its field, if it has none and the field is known. -/
def categorized (cat : Catalog) (c : Condition) : Condition :=
  if c.category.text? = some "" then
    match cat.find? c.field with
    | some f => { c with category := .text f.category.id }
    | none => c
  else c

end Condition

namespace Expression

def IsWellFormed (e : Expression) : Prop := ∀ c ∈ e.leaves, c.IsWellFormed

def depth (e : Expression) : Nat := e.toNode.depth

/-- The expression with the categories that a catalog knows. -/
def categorized (cat : Catalog) (e : Expression) : Expression :=
  e.graft fun c => .condition (c.categorized cat)

end Expression

namespace Node

theorem depthList_le {ns : List Node} {k : Nat} (h : ∀ n ∈ ns, n.depth ≤ k) : depthList ns ≤ k := by
  induction ns with
  | nil => exact Nat.zero_le k
  | cons n ns ih =>
    obtain ⟨hn, hns⟩ := List.forall_mem_cons.mp h
    rw [depthList]
    exact Nat.max_le.mpr ⟨hn, ih hns⟩

end Node

/-! ## Categories -/

theorem Category.truthy_id (c : Category) : (Value.text c.id).truthy = true := by
  cases c <;> decide

theorem Value.text?_ne_of_truthy {v : Value} (h : v.truthy = true) : v.text? ≠ some "" := by
  cases v with
  | text s =>
    rintro hs
    cases hs
    cases h
  | _ => nofun

namespace Reading

/-- The nesting that is left for a node at a depth. -/
def room (r : Reading) (depth : Nat) : Nat := (r.maxDepth + 1 - depth).toNat

def filled (r : Reading) (c : Condition) : Condition :=
  match r.catalog with
  | none => c
  | some cat => c.categorized cat

variable {r : Reading}

theorem category_of_truthy {v : Value} (h : v.truthy = true) (field : String) :
    r.category v field = v := by
  rw [category, if_pos h]

/-- A category that the reader gives is a stored one, or that of the field, or empty because there
is no such field. -/
theorem category_cases (r : Reading) (stored : Value) (field : String) :
    (r.category stored field).truthy = true ∨
      r.category stored field = .text "" ∧ r.catalog.bind (·.find? (.text field)) = none := by
  by_cases h : stored.truthy = true
  · rw [category_of_truthy h]
    exact .inl h
  · rw [category, if_neg h]
    cases hfind : r.catalog.bind (·.find? (.text field)) with
    | some f => exact .inl f.category.truthy_id
    | none => exact .inr ⟨rfl, rfl⟩

/-- A category that is given is kept. -/
theorem filled_of_truthy {c : Condition} (h : c.category.truthy = true) : r.filled c = c := by
  unfold filled
  cases r.catalog with
  | none => rfl
  | some cat => exact if_neg (Value.text?_ne_of_truthy h)

/-- Without a field to take it from, the category stays as it is. -/
theorem filled_of_unknown {c : Condition} (h : r.catalog.bind (·.find? c.field) = none) :
    r.filled c = c := by
  unfold filled
  cases hcat : r.catalog with
  | none => rfl
  | some cat =>
    rw [hcat, Option.bind_some] at h
    dsimp only
    rw [Condition.categorized, h]
    split
    · rfl
    · rfl

/-- The reader fills the category of a well-formed condition. -/
theorem filled_eq {c : Condition} {field : String} (hc : c.IsWellFormed)
    (hfield : c.field = .text field) :
    r.filled c = { c with category := r.category c.category field } := by
  rcases hc.category with hempty | htruthy
  · have hblank : ¬ (Value.text "").truthy = true := by decide
    unfold filled category
    rw [hempty, if_neg hblank]
    cases r.catalog with
    | none =>
      change c = { c with category := .text "" }
      rw [← hempty]
    | some cat =>
      rw [Option.bind_some]
      change c.categorized cat = _
      have htext : c.category.text? = some "" := congrArg Value.text? hempty
      rw [Condition.categorized, if_pos htext, hfield]
      cases cat.find? (.text field) with
      | none =>
        change c = { c with field := .text field, category := .text "" }
        rw [← hempty, ← hfield]
      | some f => rw [← hfield]
  · rw [filled_of_truthy htruthy, category_of_truthy htruthy]

/-- A condition with the category that it has when it is read back. -/
def restored (r : Reading) (c : Condition) : Condition :=
  { c with category := r.category c.category c.field.shown }

/-- What is read back of a well-formed condition is the condition with its category filled. -/
theorem restored_of_isWellFormed {c : Condition} (hc : c.IsWellFormed) :
    r.restored c = r.filled c := by
  obtain ⟨field, hfield⟩ := hc.field
  have hshown : c.field.shown = field := congrArg Value.shown hfield
  rw [filled_eq hc hfield, restored, hshown]

/-! ## Reading what was written -/

end Reading

namespace Entries

theorem get?_append (es fs : Entries) (key : String) :
    Entries.get? (es ++ fs) key = (Entries.get? es key).or (Entries.get? fs key) := by
  induction es with
  | nil => rfl
  | cons e es ih =>
    obtain ⟨k, v⟩ := e
    rw [List.cons_append, Entries.get?, Entries.get?, ih]
    split
    · rfl
    · rfl

/-- The mark of a negated node hides no other entry. -/
theorem get?_negatedEntry {key : String} (h : "not" ≠ key) (negated : Bool) :
    Entries.get? (Node.negatedEntry negated) key = none := by
  cases negated with
  | false => rfl
  | true => simp [Node.negatedEntry, Entries.get?, Value.text?, h]

theorem isNegated_append_negatedEntry {es : Entries} (h : Entries.get? es "not" = none)
    (h' : Entries.get? es "negated" = none) (negated : Bool) :
    Entries.isNegated (es ++ Node.negatedEntry negated) = negated := by
  rw [Entries.isNegated, Entries.getD_getEither?, get?_append, get?_append, h, h']
  cases negated <;> rfl

end Entries

namespace Reading

variable {r : Reading}

/-- A storable condition is read back, with its category filled in. -/
theorem readNode_toValue_condition {c : Condition} (hc : c.IsStorable) (depth : Nat) :
    r.readNode depth (Node.condition c).toValue = .ok (.condition (r.restored c)) := by
  obtain ⟨field, hfield⟩ := hc.field
  obtain ⟨operator, hoperator⟩ := hc.operator
  rw [restored, Node.toValue, hfield, hoperator, Value.shown_text,
    readNode_condition field operator,
    Entries.isNegated_append_negatedEntry]
  all_goals
    simp [Entries.get, Entries.writtenOperator, Entries.get?_negatedEntry, Entries.get?,
      Value.text?]

/-- A group is read back if its children are. -/
theorem readNode_toValue_group {depth : Nat} {op : Connective} {cs ns : List Node}
    (hfits : depth ≤ r.maxDepth)
    (hcs : r.readNodes (depth + 1) (Node.toValues cs) = .ok ns) (negated : Bool) :
    r.readNode depth (Node.group op cs negated).toValue = .ok (.group op ns negated) := by
  have hop : op.IsNamedBy (.text op.word) := by
    rw [← Connective.ofValue?_eq_some_iff]
    exact Connective.ofText?_word op
  rw [Node.toValue, readNode_group op (Node.toValues cs) _ hfits, hcs,
    Entries.isNegated_append_negatedEntry]
  · rfl
  all_goals
    simp [Entries.get, Entries.writtenConnective, Entries.writtenChildren,
      Entries.get?_negatedEntry, Entries.get?, Value.text?, hop]

mutual

/-- A tree is read back from its stored form with the categories that are stored or filled in. -/
theorem readNode_toValue (n : Node) {depth : Nat} (hn : ∀ c ∈ n.leaves, c.IsStorable)
    (hdepth : n.depth ≤ r.room depth) :
    r.readNode depth n.toValue = .ok (n.graft fun c => .condition (r.restored c)) :=
  match n with
  | .condition c => by
    rw [Node.graft]
    refine readNode_toValue_condition (hn c ?_) depth
    rw [Node.leaves_condition]
    exact List.mem_singleton_self c
  | .group op cs negated => by
    rw [Node.leaves_group] at hn
    rw [Node.depth, room] at hdepth
    have hroom : Node.depthList cs ≤ r.room (depth + 1) := by
      rw [room]
      omega
    have hcs := readNodes_toValues cs hn hroom
    rw [Node.graft]
    exact readNode_toValue_group (by omega) hcs negated

theorem readNodes_toValues (ns : List Node) {depth : Nat}
    (hns : ∀ c ∈ ns.flatMap Node.leaves, c.IsStorable)
    (hdepth : Node.depthList ns ≤ r.room depth) :
    r.readNodes depth (Node.toValues ns) =
      .ok (Node.graftAll (fun c => .condition (r.restored c)) ns) :=
  match ns with
  | [] => by rw [Node.toValues, readNodes, Node.graftAll]
  | n :: ns => by
    rw [List.flatMap_cons, List.forall_mem_append] at hns
    rw [Node.depthList, Nat.max_le] at hdepth
    have hn := readNode_toValue n hns.1 hdepth.1
    have hns := readNodes_toValues ns hns.2 hdepth.2
    rw [Node.toValues, readNodes, hn, hns, Node.graftAll]
    rfl

end

/-! ## What is read -/

/-- A condition that the reader leaves as it is: well formed, its category filled. -/
def IsSettled (r : Reading) (c : Condition) : Prop := c.IsWellFormed ∧ r.filled c = c

/-- A condition that was read has its category settled. -/
theorem isSettled_of_read (r : Reading) (field operator : String) (value stored : Value)
    (negated : Bool) :
    r.IsSettled {
      field := .text field
      operator := .text operator
      value := value
      category := r.category stored field
      negated := negated } := by
  rcases category_cases r stored field with htruthy | ⟨hempty, hunknown⟩
  · exact ⟨⟨⟨field, rfl⟩, ⟨operator, rfl⟩, .inr htruthy⟩, filled_of_truthy htruthy⟩
  · exact ⟨⟨⟨field, rfl⟩, ⟨operator, rfl⟩, .inl hempty⟩, filled_of_unknown hunknown⟩

theorem forall_mem_of_readNodes {P : Node → Prop} {depth : Nat} {vs : List Value} {ns : List Node}
    (h : r.readNodes depth vs = .ok ns)
    (hP : ∀ v ∈ vs, ∀ n, r.readNode depth v = .ok n → P n) : ∀ n ∈ ns, P n := by
  induction vs generalizing ns with
  | nil =>
    rw [readNodes] at h
    cases h
    nofun
  | cons v vs ih =>
    obtain ⟨hv, hvs⟩ := List.forall_mem_cons.mp hP
    rw [readNodes] at h
    cases hn : r.readNode depth v with
    | error m => rw [hn] at h; cases h
    | ok n =>
      cases hns : r.readNodes depth vs with
      | error m => rw [hn, hns] at h; cases h
      | ok ns' =>
        rw [hn, hns] at h
        cases h
        exact List.forall_mem_cons.mpr ⟨hv n hn, ih hns hvs⟩

/-- What is read at a depth is settled and keeps to the nesting that is left there. -/
theorem isSettled_and_depth_le_of_readNode (r : Reading) (v : Value) (depth : Nat) {n : Node}
    (h : r.readNode depth v = .ok n) :
    (∀ c ∈ n.leaves, r.IsSettled c) ∧ n.depth ≤ r.room depth := by
  induction v using Document.induction_on generalizing depth n with
  | step v ih =>
    rcases Document.sound_or_flaw r.maxDepth depth v with hsound | ⟨m, hflaw⟩
    case inr => cases h.symm.trans (readNode_of_flaw hflaw)
    cases hsound with
    | @group es op items hkind hfits hop hitems =>
      rw [readNode_group op items hkind hfits hop hitems] at h
      rw [Document.children_of_group hkind hitems] at ih
      cases hns : r.readNodes (depth + 1) items with
      | error m => rw [hns] at h; cases h
      | ok ns =>
        rw [hns] at h
        cases h
        have hall := forall_mem_of_readNodes hns fun w hw n hn => ih w hw (depth + 1) hn
        constructor
        · intro c hc
          rw [Node.leaves_group, List.mem_flatMap] at hc
          obtain ⟨n, hn, hc⟩ := hc
          exact (hall n hn).1 c hc
        · have hdepth : Node.depthList ns ≤ r.room (depth + 1) :=
            Node.depthList_le fun n hn => (hall n hn).2
          rw [Node.depth]
          rw [room] at hdepth ⊢
          omega
    | condition hkind hfield hoperator =>
      rw [readNode_condition _ _ hkind hfield hoperator] at h
      cases h
      constructor
      · intro c hc
        rw [Node.leaves_condition, List.mem_singleton] at hc
        subst hc
        exact isSettled_of_read r _ _ _ _ _
      · rw [Node.depth]
        exact Nat.zero_le _

/-! ## Whole expressions -/

/-- An expression whose fields and operators are texts is read back from its stored form. -/
theorem read_toValue_of_isStorable {e : Expression} (he : ∀ c ∈ e.leaves, c.IsStorable)
    (hdepth : e.depth ≤ r.maxDepth) :
    r.read e.toValue = .ok (e.graft fun c => .condition (r.restored c)) := by
  have hkind : Document.kind e.toValue = .text "group" := by
    rw [Expression.toValue, Expression.toNode, Node.toValue]
    rfl
  have hroom : e.toNode.depth ≤ r.room 1 := by
    rw [Expression.depth] at hdepth
    rw [room]
    omega
  rw [read_of_not_isBlank (Document.not_isBlank_of_kind hkind), Expression.toValue,
    readNode_toValue e.toNode he hroom]
  rfl

/-- A well-formed expression is read back, with its categories filled in. -/
theorem read_toValue {e : Expression} (he : e.IsWellFormed) (hdepth : e.depth ≤ r.maxDepth) :
    r.read e.toValue = .ok (e.graft fun c => .condition (r.filled c)) := by
  rw [read_toValue_of_isStorable (fun c hc => (he c hc).isStorable) hdepth]
  congr 1
  refine Expression.graft_congr fun c hc => ?_
  rw [restored_of_isWellFormed (he c hc)]

/-- What is read from a document is settled and keeps to the nesting there may be. -/
theorem isSettled_and_depth_le_of_read {v : Value} {e : Expression} (hlimit : 1 ≤ r.maxDepth)
    (h : r.read v = .ok e) : (∀ c ∈ e.leaves, r.IsSettled c) ∧ e.depth ≤ r.maxDepth := by
  by_cases hv : Document.IsBlank v
  · rw [read_of_isBlank hv] at h
    cases h
    exact ⟨nofun, hlimit⟩
  · rw [read_of_not_isBlank hv] at h
    cases hn : r.readNode 1 v with
    | error m => rw [hn] at h; cases h
    | ok n =>
      obtain ⟨hleaves, hdepth⟩ := isSettled_and_depth_le_of_readNode r v 1 hn
      rw [hn] at h
      cases n with
      | condition c => cases h
      | group op cs negated =>
        cases h
        rw [room] at hdepth
        refine ⟨hleaves, ?_⟩
        change ((Node.group op cs negated).depth : Int) ≤ _
        rw [Node.depth] at hdepth ⊢
        omega

/-- A tree that has been read is read back as it is. -/
theorem read_toValue_of_read {v : Value} {e : Expression} (hlimit : 1 ≤ r.maxDepth)
    (h : r.read v = .ok e) : r.read e.toValue = .ok e := by
  obtain ⟨hsettled, hdepth⟩ := isSettled_and_depth_le_of_read hlimit h
  rw [read_toValue (fun c hc => (hsettled c hc).1) hdepth, Expression.graft_eq_self]
  intro c hc
  rw [(hsettled c hc).2]

/-- Well-formed trees that keep to the depth are read back from their stored form, where a catalog
fills the categories that are missing.  Nothing else is read from any document, and what is read is
read back as it is. -/
theorem stored_round_trip {limit : Int} (hlimit : 1 ≤ limit) :
    (∀ e : Expression, e.IsWellFormed → e.depth ≤ limit →
      read { maxDepth := limit } e.toValue = .ok e ∧
      ∀ cat, read { maxDepth := limit, catalog := some cat } e.toValue =
        .ok (e.categorized cat)) ∧
    (∀ (catalog : Option Catalog) (v : Value) (e : Expression),
      read { maxDepth := limit, catalog := catalog } v = .ok e →
        e.IsWellFormed ∧ e.depth ≤ limit ∧
        read { maxDepth := limit, catalog := catalog } e.toValue = .ok e) ∧
    ∀ (catalog : Option Catalog) (v : Value), Document.IsBlank v →
      read { maxDepth := limit, catalog := catalog } v = .ok {} := by
  refine ⟨?_, ?_, ?_⟩
  · intro e he hdepth
    constructor
    · rw [read_toValue he hdepth, Expression.graft_eq_self]
      intro c _
      rfl
    · intro cat
      exact read_toValue he hdepth
  · intro catalog v e h
    obtain ⟨hsettled, hdepth⟩ := isSettled_and_depth_le_of_read hlimit h
    refine ⟨?_, hdepth, read_toValue_of_read hlimit h⟩
    intro c hc
    exact (hsettled c hc).1
  · intro catalog v hv
    exact read_of_isBlank hv

/-- A condition without a category and an empty group, both negated like the root. -/
theorem stored_round_trip_nested :
    let e : Expression := {
      connective := .or
      negated := true
      children := [
        .condition { field := .text "intent.score", operator := .text "gte", value := .int 5,
                     negated := true },
        .group .and [] true] }
    e.IsWellFormed ∧ e.depth = 2 ∧ read { maxDepth := 2 } e.toValue = .ok e ∧
    read { maxDepth := 2, catalog := some .bundled } e.toValue = .ok (e.categorized .bundled) ∧
    (e.categorized .bundled).leaves.map (·.category) = [.text "intent"] := by
  intro e
  have he : e.IsWellFormed := by
    intro c hc
    cases hc with
    | head => exact ⟨⟨_, rfl⟩, ⟨_, rfl⟩, .inl rfl⟩
    | tail _ hc => cases hc
  have hlimit : (1 : Int) ≤ 2 := by decide
  have hdepth : (e.depth : Int) ≤ 2 := by decide
  obtain ⟨hread, hfilled⟩ := (stored_round_trip hlimit).1 e he hdepth
  exact ⟨he, rfl, hread, hfilled .bundled, rfl⟩

end Reading

end Cohort
