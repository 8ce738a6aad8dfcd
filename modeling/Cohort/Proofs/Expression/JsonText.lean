import Cohort.Proofs.Expression.RoundTrip
import Cohort.Proofs.Json.RoundTrip

/-!
# Expressions read back from JSON text

An expression whose values JSON text keeps is read back from its text: the text
gives the stored form with its maps in the order in which they were written,
and the reader of expressions looks parts up by name, so that the order of the
parts of a node makes no difference.  What may come back in another order are
the maps inside the values of conditions, and only where the members were
sorted.
-/

namespace Cohort

namespace Condition

/-- The field, the operator and the category are texts, and JSON text keeps the value. -/
structure IsJson (c : Condition) : Prop where
  field : ∃ t, c.field = .text t
  operator : ∃ t, c.operator = .text t
  category : ∃ t, c.category = .text t
  value : c.value.IsJson

def arranged (s : Json.Style) (c : Condition) : Condition := { c with value := s.arranged c.value }

end Condition

namespace Expression

/-- The expression with the values of its conditions as a style arranges them. -/
def arranged (s : Json.Style) (e : Expression) : Expression :=
  e.graft fun c => .condition (c.arranged s)

end Expression

/-! ## Stored forms -/

namespace Node

def negatedMember (negated : Bool) : List (String × Value) :=
  if negated then [("not", .bool true)] else []

def members : Node → List (String × Value)
  | condition c =>
    [("kind", .text "condition"), ("category", c.category), ("field", c.field),
      ("op", c.operator), ("value", c.value)] ++ negatedMember c.negated
  | group op cs negated =>
    [("kind", .text "group"), ("op", .text op.word), ("children", .list (toValues cs))]
      ++ negatedMember negated

theorem toValue_eq (n : Node) : n.toValue = .map (Entries.named n.members) := by
  cases n with
  | condition c =>
    rw [toValue, members, Entries.named, List.map_append]
    cases c.negated <;> rfl
  | group op cs negated =>
    rw [toValue, members, Entries.named, List.map_append]
    cases negated <;> rfl

/-- The stored form of a node names no part twice. -/
theorem distinct_members (n : Node) : (n.members.map Prod.fst).Nodup := by
  cases n with
  | condition c =>
    rw [members, List.map_append]
    cases c.negated <;> simp [negatedMember]
  | group op cs negated =>
    rw [members, List.map_append]
    cases negated <;> simp [negatedMember]

theorem isJson_negatedMember (negated : Bool) : ∀ m ∈ negatedMember negated, m.2.IsJson := by
  cases negated with
  | false => nofun
  | true => exact List.forall_mem_singleton.mpr (.bool true)

mutual

/-- The stored form of a node is JSON if the values of its conditions are. -/
theorem isJson_toValue (n : Node) (h : ∀ c ∈ n.leaves, c.IsJson) : n.toValue.IsJson :=
  match n with
  | .condition c => by
    rw [leaves_condition, List.forall_mem_singleton] at h
    obtain ⟨⟨field, hfield⟩, ⟨operator, hoperator⟩, ⟨category, hcategory⟩, hvalue⟩ := h
    rw [toValue_eq]
    refine .map (distinct_members _) ?_
    rw [members, hfield, hoperator, hcategory, List.forall_mem_append]
    refine ⟨?_, isJson_negatedMember c.negated⟩
    simp only [List.forall_mem_cons]
    exact ⟨.text _, .text _, .text _, .text _, hvalue, nofun⟩
  | .group op cs negated => by
    rw [leaves_group] at h
    have hcs := forall_isJson_toValues cs h
    rw [toValue_eq]
    refine .map (distinct_members _) ?_
    rw [members, List.forall_mem_append]
    refine ⟨?_, isJson_negatedMember negated⟩
    simp only [List.forall_mem_cons]
    exact ⟨.text _, .text _, .list hcs, nofun⟩

theorem forall_isJson_toValues (ns : List Node) (h : ∀ c ∈ ns.flatMap leaves, c.IsJson) :
    ∀ v ∈ toValues ns, v.IsJson :=
  match ns with
  | [] => fun v hv => nomatch hv
  | n :: ns => by
    rw [List.flatMap_cons, List.forall_mem_append] at h
    exact List.forall_mem_cons.mpr ⟨isJson_toValue n h.1, forall_isJson_toValues ns h.2⟩

end

end Node

/-! ## Stored forms as they are written -/

namespace Entries

theorem get?_named_map {ms : List (String × Value)} (f : Value → Value) (name : String) :
    get? (named (ms.map fun m => (m.1, f m.2))) name = (get? (named ms) name).map f := by
  induction ms with
  | nil => rfl
  | cons m ms ih =>
    change (if some m.1 = some name then _ else get? (named (ms.map _)) name) =
      (if some m.1 = some name then _ else get? (named ms) name).map f
    rw [ih]
    split
    · rfl
    · rfl

/-- The parts of a map that a style has arranged are found under the same names. -/
theorem get?_arranged (s : Json.Style) {ms : List (String × Value)}
    (h : (ms.map Prod.fst).Nodup) (name : String) :
    get? (named ((s.arrangeNames ms).map fun m => (m.1, s.arranged m.2))) name =
      (get? (named ms) name).map s.arranged := by
  rw [get?_named_map, get?_named_of_perm (s.arrangeNames_perm ms).symm h]

/-- Entries that hold the parts of a node under their names, as a style arranges them. -/
def HoldsMembers (s : Json.Style) (n : Node) (es : Entries) : Prop :=
  ∀ name, es.get? name = (get? (named n.members) name).map s.arranged

/-- The mark of negation is found in any order of the members. -/
theorem HoldsMembers.isNegated {s : Json.Style} {n : Node} {es : Entries}
    (h : HoldsMembers s n es) : es.isNegated = n.negated := by
  rw [Entries.isNegated, getD_getEither?, h, h]
  cases n with
  | condition c =>
    rw [Node.negated, Node.members]
    cases c.negated <;> rfl
  | group op cs negated => cases negated <;> rfl

end Entries

/-- In every style the members are there, whatever their order. -/
theorem Node.exists_holdsMembers (s : Json.Style) (n : Node) :
    ∃ es : Entries, s.arranged n.toValue = .map es ∧ Entries.HoldsMembers s n es := by
  refine ⟨_, ?_, Entries.get?_arranged s n.distinct_members⟩
  rw [toValue_eq, Json.Style.arranged_map]

namespace Reading

variable {r : Reading}

/-- A condition is read back in every style, with its value as the style arranges it. -/
theorem readNode_arranged_condition (s : Json.Style) {c : Condition} (hc : c.IsJson)
    (depth : Nat) :
    r.readNode depth (s.arranged (Node.condition c).toValue) =
      .ok (.condition (r.restored (c.arranged s))) := by
  obtain ⟨⟨field, hfield⟩, ⟨operator, hoperator⟩, ⟨category, hcategory⟩, -⟩ := hc
  obtain ⟨es, hes, hget⟩ := Node.exists_holdsMembers s (.condition c)
  have hkind : es.get "kind" = .text "condition" := by
    rw [Entries.get, hget]
    rfl
  have hfieldEntry : es.get "field" = .text field := by
    rw [Entries.get, hget]
    exact congrArg s.arranged hfield
  have hoperatorEntry : es.writtenOperator = .text operator := by
    rw [Entries.writtenOperator, hget]
    exact congrArg s.arranged hoperator
  have hcategoryEntry : es.get "category" = c.category := by
    rw [Entries.get, hget, hcategory]
    exact congrArg s.arranged hcategory
  have hvalue : es.get "value" = s.arranged c.value := by
    rw [Entries.get, hget]
    rfl
  rw [hes, readNode_condition field operator hkind hfieldEntry hoperatorEntry, hcategoryEntry,
    hvalue, hget.isNegated, restored, Condition.arranged, hfield, hoperator]
  rfl

/-- A group is read back in every style, if its children are. -/
theorem readNode_arranged_group (s : Json.Style) {depth : Nat} {op : Connective}
    {cs ns : List Node} (hfits : depth ≤ r.maxDepth)
    (hcs : r.readNodes (depth + 1) ((Node.toValues cs).map s.arranged) = .ok ns)
    (negated : Bool) :
    r.readNode depth (s.arranged (Node.group op cs negated).toValue) =
      .ok (.group op ns negated) := by
  obtain ⟨es, hes, hget⟩ := Node.exists_holdsMembers s (.group op cs negated)
  have hkind : es.get "kind" = .text "group" := by
    rw [Entries.get, hget]
    rfl
  have hop : op.IsNamedBy es.writtenConnective := by
    rw [← Connective.ofValue?_eq_some_iff, Entries.writtenConnective, hget]
    exact Connective.ofText?_word op
  have hchildren : es.writtenChildren = .list ((Node.toValues cs).map s.arranged) := by
    rw [Entries.writtenChildren, hget, ← Json.Style.arranged_list]
    rfl
  rw [hes, readNode_group op _ hkind hfits hop hchildren, hcs, hget.isNegated]
  rfl

mutual

/-- A tree is read back from its stored form as a style has arranged it. -/
theorem readNode_arranged (s : Json.Style) (n : Node) {depth : Nat}
    (hn : ∀ c ∈ n.leaves, c.IsJson) (hdepth : n.depth ≤ r.room depth) :
    r.readNode depth (s.arranged n.toValue) =
      .ok (n.graft fun c => .condition (r.restored (c.arranged s))) :=
  match n with
  | .condition c => by
    rw [Node.leaves_condition, List.forall_mem_singleton] at hn
    rw [Node.graft]
    exact readNode_arranged_condition s hn depth
  | .group op cs negated => by
    rw [Node.leaves_group] at hn
    rw [Node.depth, room] at hdepth
    have hroom : Node.depthList cs ≤ r.room (depth + 1) := by
      rw [room]
      omega
    have hcs := readNodes_arranged s cs hn hroom
    rw [Node.graft]
    exact readNode_arranged_group s (by omega) hcs negated

theorem readNodes_arranged (s : Json.Style) (ns : List Node) {depth : Nat}
    (hns : ∀ c ∈ ns.flatMap Node.leaves, c.IsJson) (hdepth : Node.depthList ns ≤ r.room depth) :
    r.readNodes depth ((Node.toValues ns).map s.arranged) =
      .ok (Node.graftAll (fun c => .condition (r.restored (c.arranged s))) ns) :=
  match ns with
  | [] => by rw [Node.toValues, List.map_nil, readNodes, Node.graftAll]
  | n :: ns => by
    rw [List.flatMap_cons, List.forall_mem_append] at hns
    rw [Node.depthList, Nat.max_le] at hdepth
    have hn := readNode_arranged s n hns.1 hdepth.1
    have hns := readNodes_arranged s ns hns.2 hdepth.2
    rw [Node.toValues, List.map_cons, readNodes, hn, hns, Node.graftAll]
    rfl

end

/-! ## Whole texts -/

/-- Without a catalog nothing is filled in. -/
theorem restored_arranged (limit : Int) (s : Json.Style) {c : Condition} (hc : c.IsJson) :
    restored { maxDepth := limit } (c.arranged s) = c.arranged s := by
  have hwell : (c.arranged s).IsWellFormed := by
    refine ⟨hc.field, hc.operator, ?_⟩
    obtain ⟨t, ht⟩ := hc.category
    by_cases hempty : t = ""
    · exact .inl (ht.trans (congrArg Value.text hempty))
    · right
      change c.category.truthy = true
      rw [ht, Value.truthy_text]
      simpa using hempty
  exact restored_of_isWellFormed hwell

/-- A stored expression that a style arranges is read back. -/
theorem read_arranged {e : Expression} {limit : Int} (s : Json.Style)
    (he : ∀ c ∈ e.leaves, c.IsJson) (hdepth : e.depth ≤ limit) :
    read { maxDepth := limit } (s.arranged e.toValue) = .ok (e.arranged s) := by
  obtain ⟨es, hes, hget⟩ := Node.exists_holdsMembers s e.toNode
  have hkind : Document.kind (s.arranged e.toValue) = .text "group" := by
    rw [Expression.toValue, hes, Document.kind, Entries.get, hget]
    rfl
  have hroom : e.toNode.depth ≤ room { maxDepth := limit } 1 := by
    rw [Expression.depth] at hdepth
    rw [room]
    change _ ≤ (limit + 1 - 1).toNat
    omega
  have hnode := readNode_arranged s e.toNode he hroom
  rw [read_of_not_isBlank (Document.not_isBlank_of_kind hkind), Expression.toValue, hnode,
    Node.graft_congr _ fun c hc => congrArg Node.condition (restored_arranged limit s (he c hc))]
  rfl

end Reading

namespace Json

/-- The styles with the separators that are written by default: on one line, or indented by a
number of blanks, where less than none is none, or by a text of blanks. -/
inductive Style.IsDefault : Style → Prop
  | line (sortNames asciiOnly : Bool) : IsDefault { sortNames, asciiOnly }
  | width (n : Int) (sortNames asciiOnly : Bool) :
      IsDefault { indented (String.ofList (List.replicate n.toNat ' ')) with sortNames, asciiOnly }
  | blanks {unit : String} (h : IsGap unit.toList) (sortNames asciiOnly : Bool) :
      IsDefault { indented unit with sortNames, asciiOnly }

/-- A style that indents by blanks is read back. -/
theorem Style.isLoose_indented {unit : String} (h : IsGap unit.toList)
    (sortNames asciiOnly : Bool) :
    IsLoose { indented unit with sortNames, asciiOnly } where
  indent unit' hunit := by
    cases hunit
    exact h
  item := ⟨[], (by decide : ",".toList = [',']), by decide⟩
  name := ⟨[' '], (by decide : ": ".toList = [':', ' ']), by decide⟩

theorem Style.IsDefault.isLoose {s : Style} (h : s.IsDefault) : s.IsLoose := by
  cases h with
  | line sortNames asciiOnly => exact isLoose_line sortNames asciiOnly
  | width n sortNames asciiOnly =>
    refine isLoose_indented ?_ sortNames asciiOnly
    rw [String.toList_ofList]
    intro c hc
    cases List.eq_of_mem_replicate hc
    rfl
  | blanks h sortNames asciiOnly => exact isLoose_indented h sortNames asciiOnly

end Json

namespace Reading

/-- An expression that keeps to the depth is read back from its JSON text, whatever the indentation
and whether or not characters beyond ASCII are escaped.  Where members are sorted, the maps inside
of the values come back in another order, and nothing else does. -/
theorem readText_encode {e : Expression} {limit : Int} {s : Json.Style}
    (he : ∀ c ∈ e.leaves, c.IsJson) (hdepth : e.depth ≤ limit) (hs : s.IsDefault) :
    ∃ text, Json.encode e.toValue s = .ok text ∧
      (s.sortNames = false → readText { maxDepth := limit } text = .ok e) ∧
      readText { maxDepth := limit } text = .ok (e.arranged s) ∧
      ∀ c ∈ e.leaves, c.value.Reordered (c.arranged s).value := by
  have hjson : e.toValue.IsJson := Node.isJson_toValue e.toNode he
  obtain ⟨text, htext, hdecode⟩ := Json.exists_encode hs.isLoose hjson
  have hread : readText { maxDepth := limit } text = .ok (e.arranged s) := by
    rw [readText, hdecode]
    exact read_arranged s he hdepth
  refine ⟨text, htext, ?_, hread, ?_⟩
  · intro hsort
    rw [hread, Expression.arranged, Expression.graft_eq_self]
    intro c hc
    rw [Condition.arranged, s.arranged_eq_self hsort (he c hc).value]
  · intro c hc
    exact s.reordered_arranged (he c hc).value

/-- A map as a value, whose names a style that sorts them arranges anew. -/
theorem readText_encode_sorted :
    let e : Expression := {
      connective := .or
      children := [
        .group .and [.condition {
          field := .text "intent.score", operator := .text "between"
          value := .map [(.text "min", .int (-5)), (.text "max", .text "\\𝄞")]
          negated := true }] true] }
    let s : Json.Style := { Json.Style.indented (String.ofList (List.replicate 2 ' ')) with
      sortNames := true }
    (∀ c ∈ e.leaves, c.IsJson) ∧ e.depth = 2 ∧ s.IsDefault ∧
    (∃ text, Json.encode e.toValue s = .ok text ∧
      readText { maxDepth := 2 } text = .ok (e.arranged s)) ∧
    (e.arranged s).leaves.map (·.value) =
      [.map [(.text "max", .text "\\𝄞"), (.text "min", .int (-5))]] := by
  intro e s
  have hdepth : e.depth = 2 := by decide
  have hleaves : ∀ c ∈ e.leaves, c.IsJson := by
    simp only [e, Expression.leaves, Expression.toNode, Node.leaves_group, List.flatMap_cons,
      List.flatMap_nil, Node.leaves_condition, List.append_nil, List.forall_mem_singleton]
    refine ⟨⟨_, rfl⟩, ⟨_, rfl⟩, ⟨_, rfl⟩, ?_⟩
    refine @Value.IsJson.map [("min", .int (-5)), ("max", .text "\\𝄞")] (by decide) ?_
    rw [List.forall_mem_cons, List.forall_mem_singleton]
    exact ⟨.int (by decide), .text _⟩
  have hstyle : s.IsDefault := .width 2 true true
  obtain ⟨text, htext, -, hread, -⟩ :=
    readText_encode hleaves (by omega : e.depth ≤ (2 : Int)) hstyle
  refine ⟨hleaves, hdepth, hstyle, ⟨text, htext, hread⟩, ?_⟩
  rw [Expression.arranged, Expression.leaves_graft]
  simp [e, s, Expression.leaves, Expression.toNode, Condition.arranged, Json.Style.arranged,
    Json.Style.arrangedMembers, Json.Style.arrangeNames, Value.text?, List.mergeSort,
    List.MergeSort.Internal.splitInTwo, Entries.named]

end Reading

end Cohort
