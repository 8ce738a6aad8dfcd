import Cohort.Catalog.Bundled
import Cohort.Filters.SimpleForm
import Cohort.Proofs.Expression.Leaves
import Cohort.Proofs.Validation.Totality

/-!
# Expressions of simple forms

Where the leaves of a simple form carry what their fields take, one thing can
still be wrong with the expression of the form.  The ceiling that stands for a
missing upper bound may be below the lower bound, and then the two are no range.
-/

namespace Cohort

open Decimal (Extent)

/-- The complaints about a condition whose operator its field permits. -/
theorem Catalog.complaints_of_admits {cat : Catalog} {c : Condition} {f : Field} {op : Operator}
    (hf : cat.find? c.field = some f) (hop : c.operator = .text op.id)
    (hpermits : f.permits (.text op.id) = true) {b : Bool}
    (hadmits : (f.expectedFor (some op)).admits f c.value = .ok b) :
    cat.complaints c =
      (if b then [] else [.invalidValue (f.expectedFor (some op))]).mapM (complaint c) := by
  have hexpected : f.expected (.text op.id) = .ok (f.expectedFor (some op)) := by
    have hkey : (Value.text op.id).isKey = true := rfl
    have hnamed : Operator.ofValue? (.text op.id) = some op := Operator.ofId?_id op
    rw [Field.expected, if_pos hkey, hnamed]
  have hoperator : operatorDefects f c = [] := by rw [operatorDefects, hop, hpermits, if_pos rfl]
  have hvalue : valueDefects f c =
      .ok (if b then [] else [.invalidValue (f.expectedFor (some op))]) := by
    unfold valueDefects
    simp only [hop, hexpected, hadmits, bind, Except.bind]
    rfl
  unfold complaints
  simp only [hf, hoperator, hvalue, List.mapM_nil, pure_bind, List.nil_append, bind_pure]
  rfl

namespace SimpleForm

/-! ## What leaves carry -/

/-- A bound of a range is missing, or a number that is not negative. -/
def IsBound (v : Value) : Prop := v = .null ∨ ∃ x, v.extent? = some x ∧ Extent.ofInt 0 ≤ x

/-- A range is a map with two bounds, which are in order if both are given. -/
def IsRange (v : Value) : Prop :=
  ∃ es, v = .map es ∧ IsBound (Entries.get es "min") ∧ IsBound (Entries.get es "max") ∧
    ∀ x y, (Entries.get es "min").extent? = some x → (Entries.get es "max").extent? = some y → x ≤ y

def IsListOf (P : Value → Prop) (v : Value) : Prop :=
  ∃ xs, v.sequence? = some xs ∧ ∀ x ∈ xs, P x

/-- The values that a leaf about a field may have. -/
def Suits (f : Field) (v : Value) : Prop :=
  match f.shape with
  | .text => ∃ s, v = .text s
  | .number => ∃ x, v.extent? = some x
  | .textList => IsListOf (fun x => ∃ s, x = .text s) v
  | .choiceList => IsListOf (fun x => ∃ s, x = .text s ∧ .text s ∈ f.choices.getD []) v
  | _ => False

namespace Leaf

/-- A leaf carries what its kind and its field call for. -/
def Takes (cat : Catalog) (l : Leaf) (v : Value) : Prop :=
  match l.kind with
  | .toggle => ∃ b, v = .bool b
  | .range _ => IsRange v
  | .value _ => ∀ f, cat.find? (.text l.field) = some f → Suits f v

/-- Whether a leaf of a form is looked at. -/
def counts (form : Value) (l : Leaf) : Bool := !(l.isBusiness && !asksBusiness form)

/-- Whether a range has no upper bound, and a lower one above a ceiling. -/
def startsAbove (ceiling : Int) : Value → Bool
  | .map es =>
    (Entries.get es "max" matches .null)
      && (Entries.get es "min").extent?.any fun x => !decide (x ≤ Extent.ofInt ceiling)
  | _ => false

/-- Whether a leaf has a lower bound alone, and that above its ceiling. -/
def exceeds (l : Leaf) (v : Value) : Bool :=
  match l.kind with
  | .range ceiling => startsAbove ceiling v
  | _ => false

/-- Whether a leaf of a form is looked at and has a lower bound alone, above its ceiling. -/
def overshoots (form : Value) (l : Leaf) : Bool :=
  l.counts form && l.exceeds (reach form l.path)

/-- Whether the note about a leaf of a form can be written, if there is one. -/
def isNoted (cat : Catalog) (form : Value) (l : Leaf) : Bool :=
  match adapt cat form l with
  | .skipped (.noBounds raw) => raw.isWritable
  | _ => true

/-- Whether the lower bound of a leaf of a form can be written, where it is above the ceiling. -/
def isTold (form : Value) (l : Leaf) : Bool :=
  !l.overshoots form || (reach form (l.path ++ ["min"])).isWritable

/-- What is wrong with the condition of a leaf of a form that carries what its field takes. -/
def defects (form : Value) (l : Leaf) : List Defect :=
  if l.overshoots form then [.invalidValue .numberRange] else []

/-- Whether a field takes the conditions that a leaf is turned into. -/
def agrees (l : Leaf) (f : Field) : Bool :=
  match l.kind with
  | .toggle =>
    f.permits (.text Operator.isTrue.id) && f.permits (.text Operator.isFalse.id)
      && f.shape == .truth
  | .range ceiling =>
    f.permits (.text Operator.between.id) && f.shape == .numberRange
      && (Value.int ceiling).isWritable
  | .value op => f.permits (.text op.id) && f.expectedFor (some op) == f.shape

end Leaf

/-! ## Values of conditions -/

/-- The value that a condition gets from a leaf that is its value. -/
def listed : Value → Value
  | .tuple xs => .list xs
  | v => v

/-- A value that is meant as a list is one, with at least one item. -/
theorem listed_of_isListOf {P : Value → Prop} {v : Value} (h : IsListOf P v)
    (hv : isBlank v = false) : ∃ x xs, listed v = .list (x :: xs) ∧ ∀ y ∈ x :: xs, P y := by
  obtain ⟨xs, hxs, hall⟩ := h
  cases xs with
  | nil => cases v <;> cases hxs <;> cases hv
  | cons x xs => exact ⟨x, xs, by cases v <;> cases hxs <;> rfl, hall⟩

/-- A value that suits a field is admitted by its shape. -/
theorem admits_of_suits {f : Field} {v : Value} (h : Suits f v) (hv : isBlank v = false) :
    f.shape.admits f (listed v) = .ok true := by
  unfold Suits at h
  split at h
  case h_1 hs =>
    obtain ⟨s, rfl⟩ := h
    rw [hs]
    rfl
  case h_2 hs =>
    obtain ⟨x, hx⟩ := h
    have hlisted : listed v = v := by cases v <;> first | rfl | cases hx
    rw [hs, hlisted, Shape.admits, Value.isNumber, hx]
    rfl
  case h_3 hs =>
    obtain ⟨x, xs, hlisted, hall⟩ := listed_of_isListOf h hv
    have hitems : (x :: xs).all Value.isText = true := by
      refine List.all_eq_true.mpr fun y hy => ?_
      obtain ⟨s, rfl⟩ := hall y hy
      rfl
    rw [hs, hlisted, Shape.admits, Value.isListOf, Value.sequence?]
    simp [hitems]
  case h_4 hs =>
    obtain ⟨x, xs, hlisted, hall⟩ := listed_of_isListOf h hv
    have hitems : (x :: xs).all f.isChoice = true := by
      refine List.all_eq_true.mpr fun y hy => ?_
      obtain ⟨s, rfl, hs⟩ := hall y hy
      rw [Field.isChoice, List.any_eq_true]
      exact ⟨.text s, hs, by simp [Value.text?]⟩
    rw [hs, hlisted, Shape.admits, Value.isListOf, Value.sequence?]
    simp [hitems]
  case h_5 => exact h.elim

/-- A range has no bounds, or a missing one is replaced. -/
theorem bounds?_cases (ceiling : Int) (es : Entries) :
    (Entries.get es "min" = .null ∧ Entries.get es "max" = .null ∧
      bounds? ceiling (.map es) = none) ∨
    (¬(Entries.get es "min" = .null ∧ Entries.get es "max" = .null) ∧
      bounds? ceiling (.map es) = some (.list [orElse (Entries.get es "min") (.int 0),
        orElse (Entries.get es "max") (.int ceiling)])) := by
  simp only [bounds?]
  split
  case h_1 hlow hhigh => exact .inl ⟨hlow, hhigh, rfl⟩
  case h_2 h =>
    refine .inr ⟨?_, rfl⟩
    rintro ⟨hlow, hhigh⟩
    exact h hlow hhigh

theorem orElse_of_extent? {v : Value} {x : Extent} (h : v.extent? = some x) (other : Value) :
    orElse v other = v := by
  cases v <;> first | rfl | cases h

/-- Two numbers are a range just if they are in order. -/
theorem isNumberRange_pair {a b : Value} {x y : Extent} (ha : a.extent? = some x)
    (hb : b.extent? = some y) : (Value.list [a, b]).isNumberRange = decide (x ≤ y) := by
  simp only [Value.isNumberRange, Value.sequence?, ha, hb]

/-- The bounds of a range, with zero and the ceiling in the place of a missing one, are a pair of
numbers in order, unless the range starts above the ceiling. -/
theorem isNumberRange_of_bounds? {ceiling : Int} {v w : Value} (h : IsRange v)
    (hw : bounds? ceiling v = some w) : w.isNumberRange = !Leaf.startsAbove ceiling v := by
  obtain ⟨es, rfl, hlow, hhigh, horder⟩ := h
  obtain ⟨-, -, hnone⟩ | ⟨hsome, hpair⟩ := bounds?_cases ceiling es
  · cases hw.symm.trans hnone
  · cases hw.symm.trans hpair
    have hzero : (Value.int 0).extent? = some (Extent.ofInt 0) := rfl
    have hceiling : (Value.int ceiling).extent? = some (Extent.ofInt ceiling) := rfl
    rw [Leaf.startsAbove]
    obtain hhigh | ⟨y, hy, hy0⟩ := hhigh
    · obtain hlow | ⟨x, hx, -⟩ := hlow
      · exact absurd ⟨hlow, hhigh⟩ hsome
      · rw [orElse_of_extent? hx, hhigh, orElse, isNumberRange_pair hx hceiling, hx]
        simp
    · have hgiven : (Entries.get es "max" matches .null) = false := by
        cases hmax : Entries.get es "max" with
        | null => rw [hmax] at hy; cases hy
        | _ => rfl
      rw [orElse_of_extent? hy, hgiven, Bool.false_and, Bool.not_false]
      obtain hlow | ⟨x, hx, -⟩ := hlow
      · rw [hlow, orElse, isNumberRange_pair hzero hy]
        exact decide_eq_true hy0
      · rw [orElse_of_extent? hx, isNumberRange_pair hx hy]
        exact decide_eq_true (horder x y hx hy)

/-- A lower bound above the ceiling is a bound. -/
theorem bounds?_ne_none_of_startsAbove {ceiling : Int} {v : Value}
    (h : Leaf.startsAbove ceiling v = true) : bounds? ceiling v ≠ none := by
  unfold Leaf.startsAbove at h
  split at h
  case h_1 es =>
    intro hnone
    obtain ⟨hlow, -, -⟩ | ⟨-, hpair⟩ := bounds?_cases ceiling es
    · simp [hlow, Value.extent?] at h
    · cases hnone.symm.trans hpair
  case h_2 => cases h

/-! ## Conditions of leaves -/

def Leaf.condition (l : Leaf) (f : Field) (op : Operator) (v : Value) : Condition where
  field := .text l.field
  operator := .text op.id
  value := v
  category := .text f.category.id

def Leaf.condition? (cat : Catalog) (form : Value) (l : Leaf) : Option Condition :=
  match adapt cat form l with
  | .condition c => some c
  | _ => none

def conditions (cat : Catalog) (form : Value) : List Condition :=
  leaves.filterMap (Leaf.condition? cat form)

/-- A leaf that is looked at and filled in becomes a condition, if it is about a field and has a
test. -/
theorem Leaf.condition?_eq (cat : Catalog) (form : Value) (l : Leaf) :
    l.condition? cat form =
      if l.counts form && !isBlank (reach form l.path) then
        (cat.find? (.text l.field)).bind fun f =>
          (l.test? (reach form l.path)).map fun t => l.condition f t.1 t.2
      else none := by
  unfold Leaf.condition? adapt counts
  cases l.isBusiness && !asksBusiness form with
  | true => rfl
  | false =>
    simp only [Bool.false_eq_true, if_false, Bool.not_false, Bool.true_and]
    cases isBlank (reach form l.path) with
    | true => rfl
    | false =>
      simp only [Bool.false_eq_true, if_false, Bool.not_false, if_true]
      cases cat.find? (.text l.field) with
      | none => rfl
      | some f => cases l.test? (reach form l.path) <;> rfl

/-- A leaf that is looked at and filled in is noted if it is about a field and has no test. -/
theorem Leaf.isNoted_eq (cat : Catalog) (form : Value) (l : Leaf) :
    l.isNoted cat form =
      (!(l.counts form && !isBlank (reach form l.path) && (cat.find? (.text l.field)).isSome
        && (l.test? (reach form l.path)).isNone) || (reach form l.path).isWritable) := by
  unfold Leaf.isNoted adapt counts
  cases l.isBusiness && !asksBusiness form with
  | true => rfl
  | false =>
    simp only [Bool.false_eq_true, if_false, Bool.not_false, Bool.true_and]
    cases isBlank (reach form l.path) with
    | true => rfl
    | false =>
      simp only [Bool.false_eq_true, if_false, Bool.not_false, Bool.true_and]
      cases cat.find? (.text l.field) with
      | none => rfl
      | some f => cases l.test? (reach form l.path) <;> rfl

/-- A condition in front is in front of what is adapted behind it. -/
theorem run_cons (c : Condition) (m : Adapting (List Condition)) (notes : List String) :
    ((do return c :: (← m) : Adapting (List Condition)).run.run notes).1 =
      ((m.run.run notes).1).map (c :: ·) := by
  have hrun : (do return c :: (← m) : Adapting (List Condition)).run.run notes =
      (((m.run.run notes).1).map (c :: ·), (m.run.run notes).2) := by
    simp only [ExceptT.run_bind, ExceptT.run_pure, StateT.run_bind]
    rcases m.run.run notes with ⟨_ | _, _⟩ <;> rfl
  rw [hrun]

/-- A note that can be written is left, and the adaptation goes on. -/
theorem run_note {s : Skip} {l : Leaf} (m : Adapting (List Condition)) (notes : List String) :
    ((do
        let note ← ExceptT.mk (pure (s.message l))
        modify (· ++ [note])
        m : Adapting (List Condition)).run.run notes).1 =
      s.message l >>= fun note => (m.run.run (notes ++ [note])).1 := by
  cases hs : s.message l <;> rfl

/-- The note about a skipped leaf is written just if the leaf can be noted. -/
theorem isWriting_message_of_skipped {cat : Catalog} {form : Value} {l : Leaf} {s : Skip}
    (h : adapt cat form l = .skipped s) : Value.IsWriting (s.message l) (l.isNoted cat form) := by
  rw [Leaf.isNoted, h]
  cases s with
  | unregistered => exact .pure _
  | noBounds raw => exact (Value.isWriting_literal raw).map _

/-- An adaptation collects the conditions of the leaves, unless the note about one of them cannot be
written; the notes taken before make no difference. -/
theorem run_adaptAll (cat : Catalog) (form : Value) (ls : List Leaf) (notes : List String) :
    ((adaptAll cat form ls).run.run notes).1 =
      if ls.all (Leaf.isNoted cat form) then .ok (ls.filterMap (Leaf.condition? cat form))
      else .error .value := by
  induction ls generalizing notes with
  | nil => rfl
  | cons l ls ih =>
    rw [List.all_cons, adaptAll]
    cases hadapt : adapt cat form l with
    | blank =>
      have hnoted : l.isNoted cat form = true := by rw [Leaf.isNoted, hadapt]
      rw [List.filterMap_cons_none (by rw [Leaf.condition?, hadapt]), hnoted, Bool.true_and]
      exact ih notes
    | condition c =>
      have hnoted : l.isNoted cat form = true := by rw [Leaf.isNoted, hadapt]
      have hc : l.condition? cat form = some c := by rw [Leaf.condition?, hadapt]
      rw [List.filterMap_cons_some hc, hnoted, Bool.true_and]
      refine (run_cons c _ notes).trans ?_
      rw [ih]
      split <;> rfl
    | skipped s =>
      rw [List.filterMap_cons_none (by rw [Leaf.condition?, hadapt])]
      refine (run_note _ notes).trans ?_
      have hnote := isWriting_message_of_skipped hadapt
      cases hnoted : l.isNoted cat form with
      | false =>
        rw [hnoted] at hnote
        rw [(hnote : s.message l = .error .value)]
        rfl
      | true =>
        rw [hnoted] at hnote
        obtain ⟨note, hnote⟩ := hnote
        rw [hnote]
        exact ih _

/-- A form has an expression unless the note about one of its leaves cannot be written. -/
theorem toExpression_eq (cat : Catalog) (form : Value) :
    toExpression cat form =
      if leaves.all (Leaf.isNoted cat form) then
        .ok { children := (conditions cat form).map .condition }
      else .error .value := by
  have htext : toExpression cat form = ((adaptAll cat form leaves).run.run []).1.map
      fun cs => { children := cs.map .condition } := rfl
  rw [htext, run_adaptAll, conditions]
  split <;> rfl

/-- The conditions of a form are the conditions of its expression. -/
theorem leaves_of_conditions (cs : List Condition) :
    Expression.leaves { children := cs.map .condition } = cs := by
  rw [Expression.leaves, Expression.toNode, Node.leaves_group]
  induction cs with
  | nil => rfl
  | cons c cs ih => rw [List.map_cons, List.flatMap_cons, ih]; rfl

/-- The conditions of the expression of a form name their operators. -/
theorem exists_operator_of_mem_conditions {cat : Catalog} {form : Value} {c : Condition}
    (h : c ∈ conditions cat form) : ∃ op : Operator, c.operator = .text op.id := by
  obtain ⟨l, -, hl⟩ := List.mem_filterMap.mp h
  rw [Leaf.condition?_eq] at hl
  split at hl
  case isTrue =>
    obtain ⟨f, -, hl⟩ := Option.bind_eq_some_iff.mp hl
    obtain ⟨t, -, rfl⟩ := Option.map_eq_some_iff.mp hl
    exact ⟨t.1, rfl⟩
  case isFalse => cases hl

section Leaves

variable {cat : Catalog} {form raw : Value} {l : Leaf} {f : Field}

/-- What is not filled in exceeds nothing. -/
theorem not_exceeds_of_isBlank (h : isBlank raw = true) : l.exceeds raw = false := by
  unfold Leaf.exceeds
  split
  · cases raw <;> first | rfl | cases h
  · rfl

/-- A leaf that exceeds its ceiling has a condition all the same. -/
theorem test?_ne_none_of_exceeds (h : l.exceeds raw = true) : l.test? raw ≠ none := by
  unfold Leaf.exceeds at h
  split at h
  case h_1 ceiling hkind =>
    simpa [Leaf.test?, hkind] using bounds?_ne_none_of_startsAbove h
  case h_2 => cases h

/-- The test of a leaf that is filled in is permitted by its field, and only that of a range can be
at odds with it. -/
theorem admits_of_test? (hf : cat.find? (.text l.field) = some f) (hagrees : l.agrees f = true)
    (htakes : l.Takes cat raw) (hblank : isBlank raw = false) {op : Operator} {v : Value}
    (h : l.test? raw = some (op, v)) :
    f.permits (.text op.id) = true ∧
    (f.expectedFor (some op)).admits f v = .ok (!l.exceeds raw) ∧
    (l.exceeds raw = true → f.expectedFor (some op) = .numberRange) := by
  unfold Leaf.agrees at hagrees
  unfold Leaf.Takes at htakes
  unfold Leaf.test? at h
  unfold Leaf.exceeds
  cases hkind : l.kind with
  | toggle =>
    simp only [hkind, Bool.and_eq_true, beq_iff_eq] at hagrees htakes h ⊢
    obtain ⟨⟨htrue, hfalse⟩, hshape⟩ := hagrees
    obtain ⟨b, rfl⟩ := htakes
    cases h
    cases b with
    | false =>
      have hexpected : f.expectedFor (some .isFalse) = .truth := hshape
      exact ⟨hfalse, congrArg (·.admits f (.bool true)) hexpected, nofun⟩
    | true =>
      have hexpected : f.expectedFor (some .isTrue) = .truth := hshape
      exact ⟨htrue, congrArg (·.admits f (.bool true)) hexpected, nofun⟩
  | range ceiling =>
    simp only [hkind, Bool.and_eq_true, beq_iff_eq] at hagrees htakes h ⊢
    obtain ⟨⟨hpermits, hshape⟩, -⟩ := hagrees
    obtain ⟨w, hw, heq⟩ := Option.map_eq_some_iff.mp h
    cases heq
    have hexpected : f.expectedFor (some .between) = .numberRange := by
      rw [Field.expectedFor, hshape]
      rfl
    refine ⟨hpermits, ?_, fun _ => hexpected⟩
    rw [hexpected, Shape.admits, isNumberRange_of_bounds? htakes hw]
  | value op' =>
    simp only [hkind, Bool.and_eq_true, beq_iff_eq] at hagrees htakes h ⊢
    obtain ⟨hpermits, hexpected⟩ := hagrees
    cases h
    refine ⟨hpermits, ?_, nofun⟩
    rw [hexpected]
    exact admits_of_suits (htakes f hf) hblank

/-- The value of the condition of a range that starts above its ceiling can be written if the lower
bound can. -/
theorem isWritable_of_exceeds (hagrees : l.agrees f = true) (hexceeds : l.exceeds raw = true)
    {op : Operator} {v : Value} (h : l.test? raw = some (op, v)) :
    v.isWritable = (reach raw ["min"]).isWritable := by
  unfold Leaf.exceeds at hexceeds
  split at hexceeds
  case h_1 ceiling hkind =>
    unfold Leaf.agrees at hagrees
    unfold Leaf.test? at h
    unfold Leaf.startsAbove at hexceeds
    simp only [hkind, Bool.and_eq_true] at hagrees h
    split at hexceeds
    case h_1 es =>
      rw [Bool.and_eq_true, Option.any_eq_true] at hexceeds
      obtain ⟨hmax, x, hx, -⟩ := hexceeds
      have hmax : Entries.get es "max" = .null := by
        cases hmax' : Entries.get es "max" <;> rw [hmax'] at hmax <;> first | rfl | cases hmax
      obtain ⟨w, hw, heq⟩ := Option.map_eq_some_iff.mp h
      cases heq
      obtain ⟨hmin, -, -⟩ | ⟨-, hpair⟩ := bounds?_cases ceiling es
      · rw [hmin] at hx
        cases hx
      · cases hw.symm.trans hpair
        have hreach : reach (.map es) ["min"] = Entries.get es "min" := rfl
        rw [orElse_of_extent? hx, hmax, orElse, hreach, Value.isWritable, Value.areWritable,
          Value.areWritable, Value.areWritable, hagrees.2, Bool.and_true, Bool.and_true]
    case h_2 => cases hexceeds
  case h_2 => cases hexceeds

/-- A way through maps can be walked in two parts. -/
theorem reach_append (v : Value) (p q : List String) : reach v (p ++ q) = reach (reach v p) q := by
  induction p generalizing v with
  | nil => rfl
  | cons key p ih => exact ih _

/-- A leaf is passed over, or it becomes a condition on its field that has a defect only if the leaf
overshoots. -/
theorem Leaf.condition?_cases (hf : cat.find? (.text l.field) = some f)
    (hagrees : l.agrees f = true)
    (htakes : l.counts form = true →
      reach form l.path = .null ∨ l.Takes cat (reach form l.path)) :
    (l.condition? cat form = none ∧ l.overshoots form = false) ∨
    ∃ c : Condition, l.condition? cat form = some c ∧ c.field = .text l.field ∧
      cat.complaints c = (l.defects form).mapM (Catalog.complaint c) ∧
      (l.defects form).all (Defect.isTold c) = l.isTold form := by
  rw [condition?_eq, hf, Option.bind_some, defects, isTold, overshoots, reach_append]
  cases hcounts : l.counts form with
  | false => exact .inl ⟨rfl, rfl⟩
  | true =>
    rw [Bool.true_and, Bool.true_and]
    cases hblank : isBlank (reach form l.path) with
    | true => exact .inl ⟨rfl, not_exceeds_of_isBlank hblank⟩
    | false =>
      rw [Bool.not_false, if_pos rfl]
      have htakes : l.Takes cat (reach form l.path) := by
        refine (htakes hcounts).resolve_left fun hnull => ?_
        rw [hnull] at hblank
        cases hblank
      cases htest : l.test? (reach form l.path) with
      | none =>
        refine .inl ⟨rfl, Bool.eq_false_iff.mpr fun hexceeds => ?_⟩
        exact test?_ne_none_of_exceeds hexceeds htest
      | some t =>
        obtain ⟨op, v⟩ := t
        obtain ⟨hpermits, hadmits, hrange⟩ := admits_of_test? hf hagrees htakes hblank htest
        refine .inr ⟨l.condition f op v, rfl, rfl, ?_⟩
        have hfield : cat.find? (l.condition f op v).field = some f := hf
        rw [Catalog.complaints_of_admits hfield rfl hpermits hadmits]
        cases hexceeds : l.exceeds (reach form l.path) with
        | false => exact ⟨rfl, rfl⟩
        | true =>
          rw [hrange hexceeds, ← isWritable_of_exceeds hagrees hexceeds htest]
          refine ⟨rfl, ?_⟩
          simp [Defect.isTold, Defect.told, Leaf.condition]

end Leaves

/-! ## Expressions of forms -/

/-- Every leaf of a list is about a field that takes its conditions. -/
def Agree (cat : Catalog) (ls : List Leaf) : Prop :=
  ∀ l ∈ ls, ∃ f ∈ cat.find? (.text l.field), l.agrees f = true

instance (cat : Catalog) (ls : List Leaf) : Decidable (Agree cat ls) :=
  inferInstanceAs (Decidable (∀ l ∈ ls, ∃ f ∈ cat.find? (.text l.field), l.agrees f = true))

/-- At a condition whose complaints are those of a leaf, validation tells the defects of the leaf.
-/
theorem violationsAt_leaf {cat : Catalog} {form : Value} {l : Leaf} {c : Condition}
    (hcomplaints : cat.complaints c = (l.defects form).mapM (Catalog.complaint c))
    (hfield : c.field = .text l.field) (p : Path) :
    Value.IsWriting (cat.violationsAt (p, c)) ((l.defects form).all (Defect.isTold c)) ∧
    ∀ vs, cat.violationsAt (p, c) = .ok vs →
      vs.map (fun v => (v.condition.field, v.defect)) =
        (l.defects form).map fun d => (.text l.field, d) := by
  have hat : cat.violationsAt (p, c) = ((l.defects form).mapM (Catalog.complaint c)).map
      (List.map fun x => ⟨x.defect, c, p, x.message⟩) := by
    rw [Catalog.violationsAt, hcomplaints]
  rw [hat]
  refine ⟨(Value.isWriting_mapM (Catalog.isWriting_complaint c) _).map _, fun vs hvs => ?_⟩
  cases hxs : (l.defects form).mapM (Catalog.complaint c) with
  | error m =>
    rw [hxs] at hvs
    cases hvs
  | ok xs =>
    rw [hxs] at hvs
    cases hvs
    rw [← Catalog.map_defect_of_mapM_complaint hxs, ← hfield, List.map_map, List.map_map]
    rfl

/-- The violations of the conditions of some leaves are those of the leaves that overshoot. -/
theorem violationsOf_leaves {cat : Catalog} {form : Value} {ls : List Leaf} (hagree : Agree cat ls)
    (htakes : ∀ l ∈ ls, l.counts form = true →
      reach form l.path = .null ∨ l.Takes cat (reach form l.path)) (i : Nat) :
    let es := Node.conditionsFrom i ((ls.filterMap (Leaf.condition? cat form)).map .condition)
    Value.IsWriting (cat.violationsOf es) (ls.all (Leaf.isTold form)) ∧
    ∀ vs, cat.violationsOf es = .ok vs →
      vs.map (fun v => (v.condition.field, v.defect)) =
        (ls.filter (Leaf.overshoots form)).map
          fun l => (.text l.field, .invalidValue .numberRange) := by
  induction ls generalizing i with
  | nil =>
    refine ⟨.pure _, fun vs hvs => ?_⟩
    cases hvs
    rfl
  | cons l ls ih =>
    obtain ⟨f, hf, hl⟩ := hagree l List.mem_cons_self
    have ih := ih (fun l hl => hagree l (List.mem_cons_of_mem _ hl))
      (fun l hl => htakes l (List.mem_cons_of_mem _ hl))
    rw [List.all_cons]
    obtain ⟨hnone, hovershoots⟩ | ⟨c, hc, hfield, hcomplaints, htold⟩ :=
      Leaf.condition?_cases hf hl (htakes l List.mem_cons_self)
    · have htold : l.isTold form = true := by
        rw [Leaf.isTold, hovershoots, Bool.not_false, Bool.true_or]
      rw [List.filterMap_cons_none hnone, List.filter_cons_of_neg (by simp [hovershoots]), htold]
      exact ih i
    · obtain ⟨hwriting, hmap⟩ := ih (i + 1)
      rw [List.filterMap_cons_some hc, List.map_cons, Node.conditionsFrom, Node.conditions, ← htold]
      obtain ⟨hfirst, hhead⟩ := violationsAt_leaf hcomplaints hfield [(i : Int)]
      refine ⟨hfirst.bind fun _ _ => hwriting.map _, fun vs hvs => ?_⟩
      obtain ⟨us, hus, hvs⟩ := exists_of_bind_eq_ok hvs
      obtain ⟨ws, hws, hvs⟩ := exists_of_bind_eq_ok hvs
      cases hvs
      rw [List.map_append, hmap ws hws, hhead us hus, Leaf.defects]
      cases hovershoots : l.overshoots form with
      | false => rw [List.filter_cons_of_neg (by simp [hovershoots])]; rfl
      | true => rw [List.filter_cons_of_pos hovershoots]; rfl

/-- Where the leaves of a form that are looked at are null or carry what their fields take, its
expression is valid but for the ranges with a lower bound alone, above the ceiling.  There is no
expression if the note about a range without bounds cannot be written, and no answer if such a lower
bound cannot. -/
theorem validate_toExpression (form : Value)
    (h : ∀ l ∈ leaves, l.counts form = true →
      reach form l.path = .null ∨ l.Takes .bundled (reach form l.path)) :
    ((∃ l ∈ leaves, l.isNoted .bundled form = false) → toExpression .bundled form = .error .value) ∧
    ((∀ l ∈ leaves, l.isNoted .bundled form = true) →
      ∃ e, toExpression .bundled form = .ok e ∧
        ((∃ l ∈ leaves, l.isTold form = false) → Catalog.bundled.validate e = .error .value) ∧
        ((∀ l ∈ leaves, l.isTold form = true) →
          ∃ vs, Catalog.bundled.validate e = .ok vs ∧
            vs.map (fun v => (v.condition.field, v.defect)) =
              (leaves.filter (Leaf.overshoots form)).map
                (fun l => (.text l.field, .invalidValue .numberRange)) ∧
            (vs = [] ↔ ∀ l ∈ leaves, l.overshoots form = false))) := by
  have hagree : Agree .bundled leaves := by decide +kernel
  obtain ⟨hwriting, hmap⟩ := violationsOf_leaves hagree h 0
  rw [toExpression_eq]
  refine ⟨?_, fun hnoted => ?_⟩
  · rintro ⟨l, hl, hnoted⟩
    rw [if_neg]
    intro hall
    rw [List.all_eq_true.mp hall l hl] at hnoted
    cases hnoted
  · rw [if_pos (List.all_eq_true.mpr hnoted)]
    refine ⟨_, rfl, ?_, fun htold => ?_⟩
    · rintro ⟨l, hl, htold⟩
      refine hwriting.error_iff.mpr ⟨?_, rfl⟩
      rw [List.all_eq_false]
      exact ⟨l, hl, by simp [htold]⟩
    · obtain ⟨vs, hvs⟩ := hwriting.exists_ok_iff.mpr (List.all_eq_true.mpr htold)
      refine ⟨vs, hvs, hmap vs hvs, ?_⟩
      rw [← List.map_eq_nil_iff, hmap vs hvs, List.map_eq_nil_iff, List.filter_eq_nil_iff]
      simp only [Bool.not_eq_true]

/-- Only the leaves that are filled in need to carry what their fields take. -/
theorem takes_of_filled {cat : Catalog} {form : Value} {ls : List Leaf}
    (hfilled : leaves.filter (fun l => !(reach form l.path matches .null)) = ls)
    (h : ∀ l ∈ ls, l.Takes cat (reach form l.path)) :
    ∀ l ∈ leaves, reach form l.path = .null ∨ l.Takes cat (reach form l.path) := by
  intro l hl
  cases hnull : (reach form l.path matches .null) with
  | true =>
    left
    cases hv : reach form l.path <;> rw [hv] at hnull <;> first | rfl | cases hnull
  | false =>
    right
    apply h
    rw [← hfilled, List.mem_filter, hnull]
    exact ⟨hl, rfl⟩

theorem validate_toExpression_sections :
    let segment := Value.list [.text "cloud", .text "storage"]
    let age := Value.map [(.text "min", .int 30), (.text "max", .null)]
    let form := Value.map [(.text "segment", segment),
      (.text "personal", .map [(.text "age", age)]),
      (.text "contact", .map [(.text "hasEmail", .bool false)])]
    (∀ l ∈ leaves, l.counts form = true →
      reach form l.path = .null ∨ l.Takes .bundled (reach form l.path)) ∧
    (∀ l ∈ leaves, l.overshoots form = false) ∧
    ∃ e, toExpression .bundled form = .ok e ∧ Catalog.bundled.validate e = .ok [] := by
  intro segment age form
  have htopics : (Catalog.bundled.find? (.text "intent.topics")).map Field.shape =
      some .textList := by
    decide +kernel
  have hfilled : leaves.filter (fun l => !(reach form l.path matches .null)) =
      [⟨["segment"], "intent.topics", .value .matchAny⟩,
        ⟨["personal", "age"], "personal.age", .range 120⟩,
        ⟨["contact", "hasEmail"], "contact.has_email", .toggle⟩] := by
    decide +kernel
  have htakes : ∀ l ∈ leaves, reach form l.path = .null ∨ l.Takes .bundled (reach form l.path) := by
    refine takes_of_filled hfilled ?_
    rw [List.forall_mem_cons, List.forall_mem_cons, List.forall_mem_singleton]
    refine ⟨?_, ?_, false, rfl⟩
    · intro f hf
      rw [hf, Option.map_some, Option.some.injEq] at htopics
      unfold Suits
      rw [htopics]
      refine ⟨[.text "cloud", .text "storage"], rfl, ?_⟩
      rw [List.forall_mem_cons, List.forall_mem_singleton]
      exact ⟨⟨_, rfl⟩, ⟨_, rfl⟩⟩
    · refine ⟨_, rfl, .inr ⟨Extent.ofInt 30, rfl, ?_⟩, .inl rfl, nofun⟩
      decide +kernel
  have hnone : ∀ l ∈ leaves, l.overshoots form = false := by decide +kernel
  have hnoted : ∀ l ∈ leaves, l.isNoted .bundled form = true := by decide +kernel
  have htold : ∀ l ∈ leaves, l.isTold form = true := fun l hl => by
    rw [Leaf.isTold, hnone l hl, Bool.not_false, Bool.true_or]
  obtain ⟨e, he, -, hvalid⟩ := (validate_toExpression form fun l hl _ => htakes l hl).2 hnoted
  obtain ⟨vs, hvs, -, hempty⟩ := hvalid htold
  exact ⟨fun l hl _ => htakes l hl, hnone, e, he, by rw [hvs, hempty.mpr hnone]⟩

/-- An age from 150 on is read as one between 150 and 120. -/
theorem validate_toExpression_inverted :
    let age := Value.map [(.text "min", .int 150)]
    let form := Value.map [(.text "personal", .map [(.text "age", age)])]
    (∀ l ∈ leaves, reach form l.path = .null ∨ l.Takes .bundled (reach form l.path)) ∧
    (toExpression .bundled form >>= Catalog.bundled.validate) =
      .ok [⟨.invalidValue .numberRange,
        { field := .text "personal.age", operator := .text "between",
          value := .list [.int 150, .int 120], category := .text "personal" }, [0],
        "invalid value for field personal.age: expected numberRange, got [150, 120]"⟩] := by
  intro age form
  have hfilled : leaves.filter (fun l => !(reach form l.path matches .null)) =
      [⟨["personal", "age"], "personal.age", .range 120⟩] := by
    decide +kernel
  refine ⟨takes_of_filled hfilled ?_, by rfl⟩
  rw [List.forall_mem_singleton]
  refine ⟨_, rfl, .inr ⟨Extent.ofInt 150, rfl, ?_⟩, .inl rfl, nofun⟩
  decide +kernel

end SimpleForm

end Cohort
