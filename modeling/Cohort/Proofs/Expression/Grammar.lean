import Cohort.Failure
import Cohort.Proofs.Value.Writing
import Mathlib.Data.List.Forall2

/-!
# The grammar of stored expressions

A document is a value that is to be read as an expression.  What each of its
nodes has to be is said node by node: a node is sound, or it has a flaw, and
which one follows from the order in which its parts are looked at.  A document
is read if and only if all its nodes are sound; otherwise the reader reports the
flaw of the first node that is not, where a group comes before its children.  A
flaw that tells a whole number with too many digits cannot be put into words.
-/

namespace Cohort

/-! ## Connectives -/

namespace Text

/-- A character is raised to a capital letter if it is that letter or the small one. -/
theorem toUpper_eq_iff {c u : Char} (hu : u.isUpper = true) :
    c.toUpper = u ↔ c = u ∨ c = u.toLower := by
  have hA : 'A'.val.toNat = 65 := rfl
  have hZ : 'Z'.val.toNat = 90 := rfl
  have ha : 'a'.val.toNat = 97 := rfl
  have hz : 'z'.val.toNat = 122 := rfl
  have hraise : ('A'.val - 'a'.val).toNat = 2 ^ 32 - 32 := rfl
  have hlower : ('a'.val - 'A'.val).toNat = 32 := rfl
  have hu : 'A'.val ≤ u.val ∧ u.val ≤ 'Z'.val := of_decide_eq_true hu
  unfold Char.toUpper Char.toLower
  rw [dif_pos hu]
  rw [UInt32.le_iff_toNat_le, UInt32.le_iff_toNat_le] at hu
  by_cases hc : 'a'.val ≤ c.val ∧ c.val ≤ 'z'.val
  · rw [dif_pos hc]
    rw [UInt32.le_iff_toNat_le, UInt32.le_iff_toNat_le] at hc
    simp only [Char.ext_iff, ← UInt32.toNat_inj, UInt32.toNat_add, hraise, hlower]
    omega
  · rw [dif_neg hc]
    rw [UInt32.le_iff_toNat_le, UInt32.le_iff_toNat_le] at hc
    simp only [Char.ext_iff, ← UInt32.toNat_inj, UInt32.toNat_add, hlower]
    omega

/-- Some text is a word in any letter case: each of its letters is the capital or the small one. -/
def IsInAnyCase (s word : String) : Prop :=
  List.Forall₂ (fun c u => c = u ∨ c = u.toLower) s.toList word.toList

/-- Writing in capitals hits a word of capitals just from its writings in any case. -/
theorem upperAscii_eq_iff {s word : String} (hword : word.toList.all Char.isUpper = true) :
    upperAscii s = word ↔ IsInAnyCase s word := by
  unfold upperAscii IsInAnyCase
  rw [← String.toList_inj, String.toList_ofList]
  generalize s.toList = cs at *
  generalize word.toList = us at *
  induction us generalizing cs with
  | nil => cases cs <;> simp
  | cons u us ih =>
    rw [List.all_cons, Bool.and_eq_true] at hword
    cases cs with
    | nil => simp
    | cons c cs =>
      rw [List.map_cons, List.cons.injEq, List.forall₂_cons, toUpper_eq_iff hword.1, ih _ hword.2]

end Text

namespace Connective

/-- A value names a connective if it is the word for it, in any letter case. -/
def IsNamedBy (op : Connective) (v : Value) : Prop := ∃ s, v = .text s ∧ Text.IsInAnyCase s op.word

/-- A text names a connective just if it is its word in any case. -/
theorem ofText?_eq_some_iff {s : String} {op : Connective} :
    ofText? s = some op ↔ Text.IsInAnyCase s op.word := by
  have hword : op.word.toList.all Char.isUpper = true := by
    cases op <;> decide
  rw [← Text.upperAscii_eq_iff hword]
  constructor
  · intro h
    unfold ofText? at h
    dsimp only at h
    split at h
    case isTrue hand => cases h; exact hand
    case isFalse =>
      split at h
      case isTrue hor => cases h; exact hor
      case isFalse => cases h
  · intro h
    rw [ofText?, h]
    cases op <;> rfl

/-- The reader takes the connective that a value names. -/
theorem ofValue?_eq_some_iff {v : Value} {op : Connective} :
    ofValue? v = some op ↔ op.IsNamedBy v := by
  unfold ofValue? IsNamedBy
  rw [Option.bind_eq_some_iff]
  constructor
  · rintro ⟨s, hs, hop⟩
    refine ⟨s, ?_, ofText?_eq_some_iff.mp hop⟩
    cases v <;> cases hs
    rfl
  · rintro ⟨s, rfl, hop⟩
    exact ⟨s, rfl, ofText?_eq_some_iff.mpr hop⟩

end Connective

/-! ## Documents -/

namespace Entries

/-- The connective of a group as it is written.  Only where the short name is missing does the long
one count. -/
def writtenConnective (es : Entries) : Value :=
  (es.get? "op").getD ((es.get? "connective").getD (.text "AND"))

example : writtenConnective [(.text "op", .null), (.text "connective", .text "OR")] = .null := rfl

def writtenOperator (es : Entries) : Value :=
  (es.get? "op").getD ((es.get? "operator").getD .null)

def writtenChildren (es : Entries) : Value := (es.get? "children").getD (.list [])

theorem getD_getEither? (es : Entries) (name other : String) (v : Value) :
    (es.getEither? name other).getD v = (es.get? name).getD ((es.get? other).getD v) := by
  unfold getEither?
  cases es.get? name <;> rfl

end Entries

namespace Document

def kind : Value → Value
  | .map es => Entries.get es "kind"
  | _ => .null

/-- A blank document stands for the empty expression. -/
def IsBlank (v : Value) : Prop := v = .null ∨ v = .map []

/-- A document that says its kind is not blank. -/
theorem not_isBlank_of_kind {v : Value} {s : String} (h : kind v = .text s) : ¬ IsBlank v := by
  rintro (rfl | rfl)
  · cases h
  · cases h

def children : Value → List Value
  | .map es =>
    match Entries.get es "kind", Entries.writtenChildren es with
    | .text "group", .list items => items
    | _, _ => []
  | _ => []

theorem children_of_group {es : Entries} {items : List Value}
    (hkind : es.get "kind" = .text "group") (hitems : es.writtenChildren = .list items) :
    children (.map es) = items := by
  simp [children, hkind, hitems]

theorem children_of_condition {es : Entries} (hkind : es.get "kind" = .text "condition") :
    children (.map es) = [] := by
  simp [children, hkind]

theorem sizeOf_lt_of_mem_children {v w : Value} (h : w ∈ children v) : sizeOf w < sizeOf v := by
  unfold children at h
  split at h
  case h_2 => cases h
  case h_1 es =>
    split at h
    case h_2 => cases h
    case h_1 items _ hitems =>
      unfold Entries.writtenChildren at hitems
      cases hget : Entries.get? es "children" with
      | none =>
        rw [hget, Option.getD_none, Value.list.injEq] at hitems
        subst hitems
        cases h
      | some u =>
        rw [hget, Option.getD_some] at hitems
        subst hitems
        have hes := Entries.sizeOf_of_get? hget
        have hw := List.sizeOf_lt_of_mem h
        simp only [Value.list.sizeOf_spec, Value.map.sizeOf_spec] at hes ⊢
        omega

/-- A property holds of a document if it holds of every document whose children have it. -/
@[elab_as_elim]
theorem induction_on {motive : Value → Prop} (v : Value)
    (step : ∀ v, (∀ w ∈ children v, motive w) → motive v) : motive v :=
  step v fun w hw =>
    have := sizeOf_lt_of_mem_children hw
    induction_on w step
termination_by sizeOf v

/-- The nodes of a document, each with the depth at which a group would lie there; a node comes
before its children. -/
def nodes (depth : Nat) (v : Value) : List (Nat × Value) :=
  (depth, v) :: (children v).attach.flatMap fun w => nodes (depth + 1) w.1
termination_by sizeOf v
decreasing_by exact sizeOf_lt_of_mem_children w.2

/-- The nodes of a document are the document itself and those of its children, one deeper. -/
theorem nodes_eq (depth : Nat) (v : Value) :
    nodes depth v = (depth, v) :: (children v).flatMap (nodes (depth + 1)) := by
  rw [nodes, List.flatMap_subtype (g := nodes (depth + 1)) fun _ _ => rfl, List.unattach_attach]

/-! ## Sound nodes and flaws -/

/-- A node is sound by itself, as a group at a depth or as a condition. -/
inductive IsSound (limit : Int) (depth : Nat) : Value → Prop
  | group {es : Entries} {op : Connective} {items : List Value}
      (kind : es.get "kind" = .text "group") (fits : depth ≤ limit)
      (connective : op.IsNamedBy es.writtenConnective)
      (children : es.writtenChildren = .list items) : IsSound limit depth (.map es)
  | condition {es : Entries} {field operator : String}
      (kind : es.get "kind" = .text "condition") (field : es.get "field" = .text field)
      (operator : es.writtenOperator = .text operator) : IsSound limit depth (.map es)

/-- What is wrong with a node by itself.  A part is looked at once the parts before it are in
order. -/
inductive Flaw (limit : Int) (depth : Nat) : Value → Malformed → Prop
  | notMap {v : Value} (map : ∀ es, v ≠ .map es) : Flaw limit depth v (.notMap v)
  | unknownKind {es : Entries} (group : es.get "kind" ≠ .text "group")
      (condition : es.get "kind" ≠ .text "condition") :
      Flaw limit depth (.map es) (.unknownKind (es.get "kind"))
  | tooDeep {es : Entries} (kind : es.get "kind" = .text "group") (deep : limit < depth) :
      Flaw limit depth (.map es) (.tooDeep limit)
  | unknownConnective {es : Entries} (kind : es.get "kind" = .text "group") (fits : depth ≤ limit)
      (connective : ∀ op : Connective, ¬ op.IsNamedBy es.writtenConnective) :
      Flaw limit depth (.map es) (.unknownConnective es.writtenConnective)
  | childrenNotList {es : Entries} {op : Connective} (kind : es.get "kind" = .text "group")
      (fits : depth ≤ limit) (connective : op.IsNamedBy es.writtenConnective)
      (children : ∀ items, es.writtenChildren ≠ .list items) :
      Flaw limit depth (.map es) .childrenNotList
  | fieldNotText {es : Entries} (kind : es.get "kind" = .text "condition")
      (field : ∀ s, es.get "field" ≠ .text s) : Flaw limit depth (.map es) .fieldNotText
  | operatorNotText {es : Entries} {s : String} (kind : es.get "kind" = .text "condition")
      (field : es.get "field" = .text s) (operator : ∀ t, es.writtenOperator ≠ .text t) :
      Flaw limit depth (.map es) (.operatorNotText s)

/-- The first flaw among nodes: the nodes before it are sound. -/
inductive FirstFlaw (limit : Int) : List (Nat × Value) → Malformed → Prop
  | here {p : Nat × Value} {ps : List (Nat × Value)} {m : Malformed}
      (flaw : Flaw limit p.1 p.2 m) : FirstFlaw limit (p :: ps) m
  | later {p : Nat × Value} {ps : List (Nat × Value)} {m : Malformed}
      (sound : IsSound limit p.1 p.2) (rest : FirstFlaw limit ps m) :
      FirstFlaw limit (p :: ps) m

/-- All nodes are sound. -/
def AllSound (limit : Int) (ps : List (Nat × Value)) : Prop := ∀ p ∈ ps, IsSound limit p.1 p.2

/-- Every node is sound or has a flaw. -/
theorem sound_or_flaw (limit : Int) (depth : Nat) (v : Value) :
    IsSound limit depth v ∨ ∃ m, Flaw limit depth v m := by
  by_cases hmap : ∃ es, v = .map es
  case neg => exact .inr ⟨_, .notMap fun es h => hmap ⟨es, h⟩⟩
  obtain ⟨es, rfl⟩ := hmap
  by_cases hgroup : Entries.get es "kind" = .text "group"
  · by_cases hfits : (depth : Int) ≤ limit
    case neg => exact .inr ⟨_, .tooDeep hgroup (Int.not_le.mp hfits)⟩
    by_cases hop : ∃ op : Connective, op.IsNamedBy (Entries.writtenConnective es)
    case neg => exact .inr ⟨_, .unknownConnective hgroup hfits fun op h => hop ⟨op, h⟩⟩
    obtain ⟨op, hop⟩ := hop
    by_cases hchildren : ∃ items, Entries.writtenChildren es = .list items
    case neg =>
      refine .inr ⟨_, .childrenNotList hgroup hfits hop ?_⟩
      exact fun items h => hchildren ⟨items, h⟩
    obtain ⟨items, hchildren⟩ := hchildren
    exact .inl (.group hgroup hfits hop hchildren)
  · by_cases hcondition : Entries.get es "kind" = .text "condition"
    case neg => exact .inr ⟨_, .unknownKind hgroup hcondition⟩
    by_cases hfield : ∃ s, Entries.get es "field" = .text s
    case neg => exact .inr ⟨_, .fieldNotText hcondition fun s h => hfield ⟨s, h⟩⟩
    obtain ⟨s, hfield⟩ := hfield
    by_cases hoperator : ∃ t, Entries.writtenOperator es = .text t
    case neg => exact .inr ⟨_, .operatorNotText hcondition hfield fun t h => hoperator ⟨t, h⟩⟩
    obtain ⟨t, hoperator⟩ := hoperator
    exact .inl (.condition hcondition hfield hoperator)

/-- In a list of nodes all are sound, or there is a first flaw. -/
theorem allSound_or_firstFlaw (limit : Int) (ps : List (Nat × Value)) :
    AllSound limit ps ∨ ∃ m, FirstFlaw limit ps m := by
  induction ps with
  | nil =>
    have hnil : AllSound limit [] := fun p hp => nomatch hp
    exact .inl hnil
  | cons p ps ih =>
    rcases sound_or_flaw limit p.1 p.2 with hp | ⟨m, hp⟩
    · rcases ih with hps | ⟨m, hps⟩
      · exact .inl (List.forall_mem_cons.mpr ⟨hp, hps⟩)
      · exact .inr ⟨m, .later hp hps⟩
    · exact .inr ⟨m, .here hp⟩

/-- A document is blank, or its nodes are sound, or it has a first flaw. -/
theorem root_cases (limit : Int) (v : Value) :
    IsBlank v ∨ kind v = .text "group" ∧ AllSound limit (nodes 1 v) ∨
      ¬ IsBlank v ∧ (∃ m, FirstFlaw limit (nodes 1 v) m) ∨
      kind v = .text "condition" ∧ AllSound limit (nodes 1 v) := by
  by_cases hv : IsBlank v
  · exact .inl hv
  rcases allSound_or_firstFlaw limit (nodes 1 v) with hsound | hflaw
  · have hroot : IsSound limit 1 v := by
      rw [nodes_eq] at hsound
      exact hsound (1, v) List.mem_cons_self
    cases hroot with
    | group hkind => exact .inr (.inl ⟨hkind, hsound⟩)
    | condition hkind => exact .inr (.inr (.inr ⟨hkind, hsound⟩))
  · exact .inr (.inr (.inl ⟨hv, hflaw⟩))

/-- The first flaw of two lists is that of the first, or that of the second behind a sound one. -/
theorem FirstFlaw.of_append {limit : Int} {ps qs : List (Nat × Value)} {m : Malformed}
    (h : FirstFlaw limit (ps ++ qs) m) :
    FirstFlaw limit ps m ∨ AllSound limit ps ∧ FirstFlaw limit qs m := by
  induction ps with
  | nil =>
    have hnil : AllSound limit [] := fun p hp => nomatch hp
    exact .inr ⟨hnil, h⟩
  | cons p ps ih =>
    cases h with
    | here flaw => exact .inl (.here flaw)
    | later sound rest =>
      rcases ih rest with hps | ⟨hps, hqs⟩
      · exact .inl (.later sound hps)
      · exact .inr ⟨List.forall_mem_cons.mpr ⟨sound, hps⟩, hqs⟩

end Document

/-! ## Messages -/

namespace Malformed

/-- Whether the message of a fault can be written. -/
def isWritable : Malformed → Bool
  | unknownKind v | unknownConnective v => v.isWritable
  | tooDeep limit => (Value.int limit).isWritable
  | numberTooLong => false
  | _ => true

/-- A flaw has a message just if what it tells can be written. -/
theorem isWriting_message (m : Malformed) : Value.IsWriting m.message m.isWritable := by
  cases m with
  | unknownKind v => exact (Value.isWriting_literal v).map _
  | unknownConnective v => exact (Value.isWriting_literal v).map _
  | tooDeep limit => exact (Value.isWriting_integer limit).map _
  | numberTooLong => exact rfl
  | _ => exact .pure _

/-- A fault is met as itself where its message can be written. -/
theorem ofMalformed_eq (m : Malformed) :
    Failure.ofMalformed m = if m.isWritable then .malformed m else .misuse .value := by
  have hmessage := m.isWriting_message
  have hsame : (Failure.malformed m).message = m.message := rfl
  rw [Failure.ofMalformed, Failure.met, hsame]
  cases hwritable : m.isWritable with
  | false =>
    rw [hwritable] at hmessage
    rw [(hmessage : m.message = .error .value)]
    rfl
  | true =>
    rw [hwritable] at hmessage
    obtain ⟨text, htext⟩ := hmessage
    rw [htext]
    rfl

end Malformed

/-! ## One step of the reader -/

namespace Reading

open Document

variable {r : Reading} {depth : Nat} {es : Entries}

theorem readConnective_eq (es : Entries) :
    readConnective es = match Connective.ofValue? es.writtenConnective with
      | some op => .ok op
      | none => .error (.unknownConnective es.writtenConnective) := by
  rw [readConnective, Entries.getD_getEither?]
  rfl

/-- Reading a group checks its depth, its connective and its children, in this order. -/
theorem readNode_of_group (hkind : es.get "kind" = .text "group") :
    r.readNode depth (.map es) =
      if r.maxDepth < depth then .error (.tooDeep r.maxDepth)
      else match Connective.ofValue? es.writtenConnective, es.writtenChildren with
        | none, _ => .error (.unknownConnective es.writtenConnective)
        | some op, .list items =>
          (r.readNodes (depth + 1) items).map fun ns => .group op ns es.isNegated
        | some _, _ => .error .childrenNotList := by
  rw [readNode]
  split
  case h_2 h => exact absurd (hkind.symm.trans h) (by simp)
  case h_3 h _ => exact absurd hkind h
  case h_1 =>
    congr 1
    rw [readConnective_eq]
    unfold Entries.writtenChildren
    cases Connective.ofValue? es.writtenConnective with
    | none => rfl
    | some op =>
      dsimp only
      split
      case h_1 hnone =>
        rw [hnone]
        change _ = (r.readNodes (depth + 1) []).map _
        rw [readNodes]
        rfl
      case h_2 hsome => rw [hsome]; rfl
      case h_3 v hne hsome =>
        rw [hsome]
        cases v with
        | list items => exact absurd rfl (hne items)
        | _ => rfl

theorem readNode_of_condition (hkind : es.get "kind" = .text "condition") :
    r.readNode depth (.map es) = (r.readCondition es).map .condition := by
  rw [readNode]
  split
  case h_1 h => exact absurd (hkind.symm.trans h) (by simp)
  case h_2 => rfl
  case h_3 _ h => exact absurd hkind h

/-- What the reader makes of a group that is sound. -/
theorem readNode_group (op : Connective) (items : List Value)
    (hkind : es.get "kind" = .text "group") (hfits : depth ≤ r.maxDepth)
    (hop : op.IsNamedBy es.writtenConnective) (hchildren : es.writtenChildren = .list items) :
    r.readNode depth (.map es) =
      (r.readNodes (depth + 1) items).map fun ns => .group op ns es.isNegated := by
  rw [readNode_of_group hkind, if_neg (Int.not_lt.mpr hfits),
    Connective.ofValue?_eq_some_iff.mpr hop, hchildren]

/-- What the reader makes of a condition that is sound. -/
theorem readNode_condition (field operator : String) (hkind : es.get "kind" = .text "condition")
    (hfield : es.get "field" = .text field) (hoperator : es.writtenOperator = .text operator) :
    r.readNode depth (.map es) = .ok (.condition {
      field := .text field
      operator := .text operator
      value := es.get "value"
      category := r.category (es.get "category") field
      negated := es.isNegated }) := by
  rw [Entries.writtenOperator, ← Entries.getD_getEither?] at hoperator
  rw [readNode_of_condition hkind, readCondition, hfield, hoperator]
  rfl

/-- The flaw of a node is what the reader reports. -/
theorem readNode_of_flaw {v : Value} {m : Malformed} (h : Flaw r.maxDepth depth v m) :
    r.readNode depth v = .error m := by
  cases h with
  | notMap hmap =>
    rw [readNode]
    exact fun es h => hmap es h
  | unknownKind hgroup hcondition =>
    rw [readNode]
    split
    case h_1 h => exact absurd h hgroup
    case h_2 h => exact absurd h hcondition
    case h_3 => rfl
  | tooDeep hkind hdeep => rw [readNode_of_group hkind, if_pos hdeep]
  | @unknownConnective es hkind hfits hop =>
    rw [readNode_of_group hkind, if_neg (Int.not_lt.mpr hfits)]
    cases h : Connective.ofValue? es.writtenConnective with
    | none => rfl
    | some op => exact absurd (Connective.ofValue?_eq_some_iff.mp h) (hop op)
  | @childrenNotList es op hkind hfits hop hchildren =>
    rw [readNode_of_group hkind, if_neg (Int.not_lt.mpr hfits),
      Connective.ofValue?_eq_some_iff.mpr hop]
    cases h : es.writtenChildren with
    | list items => exact absurd h (hchildren items)
    | _ => rfl
  | @fieldNotText es hkind hfield =>
    rw [readNode_of_condition hkind, readCondition]
    cases h : Entries.get es "field" with
    | text s => exact absurd h (hfield s)
    | _ => rfl
  | @operatorNotText es s hkind hfield hoperator =>
    rw [readNode_of_condition hkind, readCondition, hfield]
    rw [Entries.writtenOperator, ← Entries.getD_getEither?] at hoperator
    cases h : (es.getEither? "op" "operator").getD .null with
    | text t => exact absurd h (hoperator t)
    | _ => rfl

/-! ## Whole documents -/

/-- Nodes are read if each one is. -/
theorem exists_readNodes {vs : List Value} (h : ∀ v ∈ vs, ∃ n, r.readNode depth v = .ok n) :
    ∃ ns, r.readNodes depth vs = .ok ns := by
  induction vs with
  | nil => exact ⟨[], by rw [readNodes]⟩
  | cons v vs ih =>
    obtain ⟨⟨n, hn⟩, hvs⟩ := List.forall_mem_cons.mp h
    obtain ⟨ns, hns⟩ := ih hvs
    exact ⟨n :: ns, by rw [readNodes, hn, hns]; rfl⟩

/-- A document is read if all its nodes are sound. -/
theorem exists_readNode_of_allSound (r : Reading) (v : Value) (depth : Nat)
    (h : AllSound r.maxDepth (nodes depth v)) : ∃ n, r.readNode depth v = .ok n := by
  induction v using Document.induction_on generalizing depth with
  | step v ih =>
    rw [nodes_eq, AllSound, List.forall_mem_cons] at h
    obtain ⟨hv, hchildren⟩ := h
    cases hv with
    | @group es op items hkind hfits hop hitems =>
      rw [children_of_group hkind hitems] at hchildren ih
      have hread : ∀ w ∈ items, ∃ n, r.readNode (depth + 1) w = .ok n := by
        intro w hw
        refine ih w hw (depth + 1) ?_
        intro p hp
        exact hchildren p (List.mem_flatMap.mpr ⟨w, hw, hp⟩)
      obtain ⟨ns, hns⟩ := exists_readNodes hread
      refine ⟨.group op ns es.isNegated, ?_⟩
      rw [readNode_group op items hkind hfits hop hitems, hns]
      rfl
    | condition hkind hfield hoperator => exact ⟨_, readNode_condition _ _ hkind hfield hoperator⟩

/-- Of several nodes the first flaw is reported. -/
theorem readNodes_of_firstFlaw {vs : List Value} {m : Malformed}
    (ih : ∀ v ∈ vs, FirstFlaw r.maxDepth (nodes depth v) m → r.readNode depth v = .error m)
    (h : FirstFlaw r.maxDepth (vs.flatMap (nodes depth)) m) : r.readNodes depth vs = .error m := by
  induction vs with
  | nil => cases h
  | cons v vs ihvs =>
    obtain ⟨ihv, ih⟩ := List.forall_mem_cons.mp ih
    rw [List.flatMap_cons] at h
    rcases h.of_append with hv | ⟨hv, hvs⟩
    · rw [readNodes, ihv hv]
    · obtain ⟨n, hn⟩ := exists_readNode_of_allSound r v depth hv
      rw [readNodes, hn, ihvs ih hvs]
      rfl

/-- The first flaw of a document is what the reader reports. -/
theorem readNode_of_firstFlaw (r : Reading) (v : Value) (depth : Nat) {m : Malformed}
    (h : FirstFlaw r.maxDepth (nodes depth v) m) : r.readNode depth v = .error m := by
  induction v using Document.induction_on generalizing depth with
  | step v ih =>
    rw [nodes_eq] at h
    cases h with
    | here flaw => exact readNode_of_flaw flaw
    | later sound rest =>
      cases sound with
      | @group es op items hkind hfits hop hitems =>
        rw [children_of_group hkind hitems] at rest ih
        have hread := readNodes_of_firstFlaw (fun w hw => ih w hw (depth + 1)) rest
        rw [readNode_group op items hkind hfits hop hitems, hread]
        rfl
      | @condition es field operator hkind hfield hoperator =>
        rw [children_of_condition hkind] at rest
        cases rest

/-! ## The root -/

theorem read_of_not_isBlank {v : Value} (hv : ¬ IsBlank v) :
    r.read v = match r.readNode 1 v with
      | .error m => .error m
      | .ok n => match Expression.ofNode? n with
        | some e => .ok e
        | none => .error .rootNotGroup := by
  unfold read
  split
  case h_1 => exact absurd (.inl rfl) hv
  case h_2 => exact absurd (.inr rfl) hv
  case h_3 => rfl

theorem read_of_isBlank {v : Value} (hv : IsBlank v) : r.read v = .ok {} := by
  rcases hv with rfl | rfl
  · rfl
  · rfl

/-- A sound group is read. -/
theorem exists_read_of_group {v : Value} (hkind : kind v = .text "group")
    (hsound : AllSound r.maxDepth (nodes 1 v)) : ∃ e, r.read v = .ok e := by
  obtain ⟨n, hn⟩ := exists_readNode_of_allSound r v 1 hsound
  rw [read_of_not_isBlank (not_isBlank_of_kind hkind), hn]
  rw [nodes_eq] at hsound
  cases hsound (1, v) List.mem_cons_self with
  | @group es op items _ hfits hop hitems =>
    rw [readNode_group op items hkind hfits hop hitems] at hn
    cases hns : r.readNodes 2 items with
    | error m => rw [hns] at hn; cases hn
    | ok ns =>
      rw [hns] at hn
      cases hn
      exact ⟨⟨op, ns, es.isNegated⟩, rfl⟩
  | condition hcondition => exact absurd (hkind.symm.trans hcondition) (by simp)

/-- A sound condition is not read as an expression, since it is no group. -/
theorem read_of_condition {v : Value} (hkind : kind v = .text "condition")
    (hsound : AllSound r.maxDepth (nodes 1 v)) : r.read v = .error .rootNotGroup := by
  rw [read_of_not_isBlank (not_isBlank_of_kind hkind)]
  rw [nodes_eq] at hsound
  cases hsound (1, v) List.mem_cons_self with
  | group hgroup => exact absurd (hkind.symm.trans hgroup) (by simp)
  | condition _ hfield hoperator =>
    rw [readNode_condition _ _ hkind hfield hoperator]
    rfl

/-- The first flaw of a document that is not blank is reported. -/
theorem read_of_firstFlaw {v : Value} {m : Malformed} (hv : ¬ IsBlank v)
    (h : FirstFlaw r.maxDepth (nodes 1 v) m) : r.read v = .error m := by
  rw [read_of_not_isBlank hv, readNode_of_firstFlaw r v 1 h]

/-- Every document is read or refused: as malformed, or for a message that cannot be written.  It is
read if it is blank or a group all of whose nodes are sound; otherwise the first flaw is reported,
and where there is none, that the root is no group. -/
theorem read_grammar (r : Reading) (v : Value) :
    ((∃ e, r.read v = .ok e) ∨
      ∃ m, r.read v = .error m ∧
        Failure.ofMalformed m = if m.isWritable then .malformed m else .misuse .value) ∧
    ((∃ e, r.read v = .ok e) ↔
      IsBlank v ∨ kind v = .text "group" ∧ AllSound r.maxDepth (nodes 1 v)) ∧
    ∀ m, r.read v = .error m ↔
      ¬ IsBlank v ∧ (FirstFlaw r.maxDepth (nodes 1 v) m ∨
        kind v = .text "condition" ∧ AllSound r.maxDepth (nodes 1 v) ∧ m = .rootNotGroup) := by
  refine ⟨?_, ⟨?_, ?_⟩, fun m => ⟨?_, ?_⟩⟩
  · cases hread : r.read v with
    | ok e => exact .inl ⟨e, rfl⟩
    | error m => exact .inr ⟨m, rfl, m.ofMalformed_eq⟩
  · rintro ⟨e, he⟩
    rcases root_cases r.maxDepth v with hv | hgroup | ⟨hv, m, hm⟩ | ⟨hkind, hsound⟩
    · exact .inl hv
    · exact .inr hgroup
    · cases he.symm.trans (read_of_firstFlaw hv hm)
    · cases he.symm.trans (read_of_condition hkind hsound)
  · rintro (hv | ⟨hkind, hsound⟩)
    · exact ⟨_, read_of_isBlank hv⟩
    · exact exists_read_of_group hkind hsound
  · intro hread
    rcases root_cases r.maxDepth v with hv | ⟨hkind, hsound⟩ | ⟨hv, m', hm⟩ | ⟨hkind, hsound⟩
    · cases hread.symm.trans (read_of_isBlank hv)
    · obtain ⟨e, he⟩ := exists_read_of_group hkind hsound
      cases hread.symm.trans he
    · cases hread.symm.trans (read_of_firstFlaw hv hm)
      exact ⟨hv, .inl hm⟩
    · cases hread.symm.trans (read_of_condition hkind hsound)
      exact ⟨not_isBlank_of_kind hkind, .inr ⟨hkind, hsound, rfl⟩⟩
  · rintro ⟨hv, hm | ⟨hkind, hsound, rfl⟩⟩
    · exact read_of_firstFlaw hv hm
    · exact read_of_condition hkind hsound

/-- A kind with too many digits is a flaw that cannot be put into words. -/
theorem read_tooLong :
    let v : Value := .map [(.text "kind", .tooLong)]
    Flaw 10 1 v (.unknownKind .tooLong) ∧ ({} : Reading).read v = .error (.unknownKind .tooLong) ∧
      Failure.ofMalformed (.unknownKind .tooLong) = .misuse .value := by
  intro v
  have hflaw : Flaw 10 1 v (.unknownKind .tooLong) := by
    have hgroup : Value.tooLong ≠ .text "group" := nofun
    have hcondition : Value.tooLong ≠ .text "condition" := nofun
    exact .unknownKind hgroup hcondition
  have hblank : ¬ IsBlank (.map [(.text "kind", .tooLong)]) := by
    rintro (h | h) <;> cases h
  refine ⟨hflaw, read_of_firstFlaw hblank ?_, ?_⟩
  · rw [nodes_eq]
    exact .here hflaw
  · have hunfit : (Malformed.unknownKind .tooLong).isWritable = false := Value.isWritable_tooLong
    rw [Malformed.ofMalformed_eq, hunfit]
    rfl

end Reading

end Cohort
