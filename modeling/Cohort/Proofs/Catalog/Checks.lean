import Cohort.Catalog.Basic
import Cohort.Proofs.Traversal
import Cohort.Proofs.Value.Writing
import Mathlib.Data.List.Nodup

/-!
# The checks of an entry

An entry of a list of fields is held against a list of checks, the first of which that it fails
settles the error.  Only one of the checks looks at the entries before it: the key has to be a new
one.  An entry passes all checks if and only if it is sound by itself and its key is new.

What comes of the checks is said of each function that makes some of them (`Conducts`), and where
one function follows another, the checks of the second follow those of the first.
-/

namespace Cohort

namespace Value

theorem text?_eq_some_iff {v : Value} {s : String} : v.text? = some s ↔ v = text s := by
  cases v <;> simp [text?]

/-- The part of a value under a name, null if there is none. -/
def part (v : Value) (name : String) : Value := (v.get? name).getD .null

theorem part_of_get? {v w : Value} {name : String} (h : v.get? name = some w) :
    v.part name = w := by
  rw [part, h, Option.getD_some]

end Value

/-! ## Identifiers -/

/-- What is read off an identifier is read off no other value. -/
theorem isPartialInv_find? {α : Type} {all : List α} {id : α → String}
    (hall : ∀ a, all.find? (id · == id a) = some a) :
    Function.IsPartialInv (fun a => Value.text (id a))
      fun v => v.text?.bind fun s => all.find? (id · == s) := by
  intro a v
  constructor
  · intro h
    obtain ⟨s, hs, ha⟩ := Option.bind_eq_some_iff.mp h
    cases v <;> cases hs
    have hid : id a = s := by simpa using List.find?_some ha
    exact congrArg Value.text hid
  · rintro rfl
    exact hall a

theorem Category.isPartialInv_ofValue? :
    Function.IsPartialInv (fun c : Category => Value.text c.id) ofValue? :=
  isPartialInv_find? ofValue?_id

theorem Shape.isPartialInv_ofValue? :
    Function.IsPartialInv (fun s : Shape => Value.text s.id) ofValue? :=
  isPartialInv_find? ofValue?_id

theorem Operator.isPartialInv_ofValue? :
    Function.IsPartialInv (fun op : Operator => Value.text op.id) ofValue? :=
  isPartialInv_find? ofId?_id

theorem Shape.textId_injective : Function.Injective fun s : Shape => Value.text s.id :=
  isPartialInv_ofValue?.injective

theorem Operator.textId_injective : Function.Injective fun op : Operator => Value.text op.id :=
  isPartialInv_ofValue?.injective

/-- Whether a value is the identifier of an operator cannot be asked. -/
def IsUnfitOperator (w : Value) : Prop := w.isKey = false ∧ ∀ members, w ≠ .set members

/-- A value cannot be looked up among the operators just if it cannot be a key. -/
theorem Operator.known_eq_error_iff {w : Value} {m : Misuse} :
    Operator.known w = .error m ↔ m = .kind ∧ IsUnfitOperator w := by
  unfold Operator.known IsUnfitOperator
  split
  case h_1 members => simp
  case h_2 hset =>
    cases hkey : w.isKey with
    | true => simp
    | false => simpa [eq_comm] using fun _ => hset

theorem Operator.known_eq_ok {w : Value} (h : ¬ IsUnfitOperator w) :
    Operator.known w = .ok (Operator.ofValue? w).isSome := by
  unfold Operator.known
  split
  case h_1 => rfl
  case h_2 hset =>
    exact if_pos (Bool.of_not_eq_false fun hkey => h ⟨hkey, hset⟩)

/-! ## Messages -/

namespace CatalogError

/-- The values that an error tells of. -/
def told : CatalogError → List Value
  | unreadable _ | noFieldList _ | misuse _ => []
  | missing _ entry => [entry]
  | notCategory key _ | notShape key _ => [key]
  | duplicateKey key | noOperators key | repeatedOperator key => [key]
  | unknownOperators key ops => [key, .list ops]
  | noChoices key | unexpectedChoices key => [key]

/-- Whether all that an error tells of can be written. -/
def isTold (e : CatalogError) : Bool := e.told.all (·.isWritable)

theorem isWriting_message {e : CatalogError} (he : ∀ m, e ≠ .misuse m) :
    Value.IsWriting e.message e.isTold := by
  rw [isTold]
  cases e with
  | unreadable path => exact .pure _
  | noFieldList path => exact .pure _
  | missing name entry =>
    rw [told, List.all_cons, List.all_nil, Bool.and_true]
    exact (Value.isWriting_literal entry).map _
  | notCategory key v =>
    rw [told, List.all_cons, List.all_nil, Bool.and_true]
    exact (Value.isWriting_literal key).map _
  | notShape key v =>
    rw [told, List.all_cons, List.all_nil, Bool.and_true]
    exact (Value.isWriting_literal key).map _
  | unknownOperators key ops =>
    simp only [told, List.all_cons, List.all_nil, Bool.and_true]
    exact (Value.isWriting_display key).bind fun _ _ =>
      (Value.isWriting_literal (.list ops)).map _
  | misuse m => exact absurd rfl (he m)
  | _ key =>
    rw [told, List.all_cons, List.all_nil, Bool.and_true]
    exact (Value.isWriting_display key).map _

/-- What is met in the place of an error is a misuse just if it is one, or cannot be told. -/
theorem message_eq_error_iff {e : CatalogError} {m : Misuse} :
    e.message = .error m ↔ e = .misuse m ∨ (m = .value ∧ e.isTold = false) := by
  by_cases he : ∃ m', e = .misuse m'
  · obtain ⟨m', rfl⟩ := he
    simp [message, isTold, told]
  · rw [not_exists] at he
    rw [(isWriting_message he).error_iff, and_comm, or_iff_right (he m)]

end CatalogError

namespace FieldEntry

/-- An entry whose parts have the kinds that they are declared with. -/
structure IsTyped (v : Value) : Prop where
  map : ∃ es, v = .map es
  key : ∀ w, v.get? "key" = some w → ∃ s, w = .text s
  operators : ∀ w, v.get? "operators" = some w → ∃ ids : List String, w = .list (ids.map .text)
  choices : ∀ w, v.get? "enum_values" = some w →
    w = .null ∨ ∃ cs : List String, w = .list (cs.map .text)

def keyOf (v : Value) : Value := v.part "key"

def operatorsOf (v : Value) : List Value := (v.part "operators").sequence?.getD []

def choicesOf (v : Value) : Option (List Value) := (v.part "enum_values").sequence?

/-! ## Sound entries -/

/-- An entry is sound by itself. -/
structure IsSound (v : Value) : Prop where
  key : ∃ s, v.get? "key" = some (.text s)
  category : ∃ c : Category, v.get? "category" = some (.text c.id)
  shape : ∃ s : Shape, v.get? "value_type" = some (.text s.id) ∧
    if s.isClosed then (choicesOf v).getD [] ≠ [] else choicesOf v = none
  operators : ∃ ops : List Operator, v.get? "operators" = some (.list (ops.map (.text ·.id))) ∧
    ops ≠ [] ∧ ops.Nodup

/-- A field is what an entry says; what may be left out has a default. -/
structure Describes (v : Value) (f : Field) : Prop where
  key : v.get? "key" = some f.key
  category : v.get? "category" = some (.text f.category.id)
  shape : v.get? "value_type" = some (.text f.shape.id)
  operators : v.get? "operators" = some (.list (f.operators.map (.text ·.id)))
  choices : f.choices = choicesOf v
  label : f.label = (v.get? "label").getD f.key
  column : f.column = (v.get? "relational").getD f.key
  searchPath : f.searchPath = v.part "search"
  description : f.description = (v.get? "description").getD (.text "")

/-! ## Checks -/

/-- What an entry is checked for. -/
inductive Check where
  | key | category | knownCategory | shape | knownShape | operators
  | newKey | someOperator | knownOperators | distinctOperators | someChoice | noChoice

namespace Check

def ofParts : List Check := [key, category, knownCategory, shape, knownShape, operators]

def ofOperators : List Check := [someOperator, knownOperators, distinctOperators]

def ofChoices : List Check := [someChoice, noChoice]

def all : List Check := ofParts ++ newKey :: (ofOperators ++ ofChoices)

/-- Every check is made. -/
theorem mem_all (check : Check) : check ∈ all := by
  cases check <;> simp [all, ofParts, ofOperators, ofChoices]

/-- An entry passes a check, where some keys are taken.  A part that is missing is left to the check
for that part. -/
def Passes (taken : List Value) (v : Value) : Check → Prop
  | key => v.get? "key" ≠ none
  | category => v.get? "category" ≠ none
  | knownCategory => ∀ w, v.get? "category" = some w → ∃ c : Category, w = .text c.id
  | shape => v.get? "value_type" ≠ none
  | knownShape => ∀ w, v.get? "value_type" = some w → ∃ s : Shape, w = .text s.id
  | operators => v.get? "operators" ≠ none
  | newKey => keyOf v ∉ taken
  | someOperator => operatorsOf v ≠ []
  | knownOperators => ∀ w ∈ operatorsOf v, ∃ op : Operator, w = .text op.id
  | distinctOperators => (operatorsOf v).Nodup
  | someChoice => ∀ s : Shape, v.get? "value_type" = some (.text s.id) → s.isClosed = true →
      (choicesOf v).getD [] ≠ []
  | noChoice => ∀ s : Shape, v.get? "value_type" = some (.text s.id) → s.isClosed = false →
      choicesOf v = none

def error (v : Value) : Check → CatalogError
  | key => .missing "key" v
  | category => .missing "category" v
  | knownCategory => .notCategory (keyOf v) (v.part "category")
  | shape => .missing "value_type" v
  | knownShape => .notShape (keyOf v) (v.part "value_type")
  | operators => .missing "operators" v
  | newKey => .duplicateKey (keyOf v)
  | someOperator => .noOperators (keyOf v)
  | knownOperators => .unknownOperators (keyOf v)
      ((operatorsOf v).filter fun w => (Operator.ofValue? w).isNone)
  | distinctOperators => .repeatedOperator (keyOf v)
  | someChoice => .noChoices (keyOf v)
  | noChoice => .unexpectedChoices (keyOf v)

/-- A failed check is reported as an error of the catalog, not as a misuse. -/
theorem error_ne_misuse (check : Check) (v : Value) (m : Misuse) : check.error v ≠ .misuse m := by
  cases check <;> exact nofun

/-- The first of some checks that an entry fails: it passes the checks before it. -/
inductive FailsFirst (taken : List Value) (v : Value) : List Check → Check → Prop
  | here {check : Check} {checks : List Check} (fails : ¬ Passes taken v check) :
      FailsFirst taken v (check :: checks) check
  | later {passed check : Check} {checks : List Check} (passes : Passes taken v passed)
      (rest : FailsFirst taken v checks check) : FailsFirst taken v (passed :: checks) check

/-- The first check that fails is failed. -/
theorem FailsFirst.fails {taken : List Value} {v : Value} {checks : List Check} {check : Check}
    (h : FailsFirst taken v checks check) : ¬ Passes taken v check := by
  induction h with
  | here fails => exact fails
  | later _ _ ih => exact ih

end Check

open Check (Passes FailsFirst)

section Passing

variable {taken : List Value} {v : Value}

/-- A sound entry with a new key passes all checks. -/
theorem IsSound.passes (sound : IsSound v) (new : keyOf v ∉ taken) (check : Check) :
    Passes taken v check := by
  obtain ⟨s, hkey⟩ := sound.key
  obtain ⟨c, hcategory⟩ := sound.category
  obtain ⟨shape, hshape, hchoices⟩ := sound.shape
  obtain ⟨ops, hops, hne, hnodup⟩ := sound.operators
  have hlisted : operatorsOf v = ops.map (.text ·.id) := by
    rw [operatorsOf, Value.part_of_get? hops]
    rfl
  cases check with
  | key => simp [Passes, hkey]
  | category => simp [Passes, hcategory]
  | knownCategory => simp [Passes, hcategory]
  | shape => simp [Passes, hshape]
  | knownShape => simp [Passes, hshape]
  | operators => simp [Passes, hops]
  | newKey => exact new
  | someOperator => simpa [Passes, hlisted] using hne
  | knownOperators => simp [Passes, hlisted]
  | distinctOperators =>
    rw [Passes, hlisted]
    exact hnodup.map Operator.textId_injective
  | someChoice =>
    intro t ht hclosed
    obtain rfl : shape = t := Shape.textId_injective (Option.some.inj (hshape.symm.trans ht))
    rwa [hclosed, if_pos rfl] at hchoices
  | noChoice =>
    intro t ht hclosed
    obtain rfl : shape = t := Shape.textId_injective (Option.some.inj (hshape.symm.trans ht))
    rwa [hclosed, if_neg Bool.false_ne_true] at hchoices

/-- Known operators are listed by their identifiers. -/
theorem exists_operators {ws : List Value} (h : ∀ w ∈ ws, ∃ op : Operator, w = .text op.id) :
    ∃ ops : List Operator, ws = ops.map (.text ·.id) := by
  induction ws with
  | nil => exact ⟨[], rfl⟩
  | cons w ws ih =>
    obtain ⟨⟨op, rfl⟩, hws⟩ := List.forall_mem_cons.mp h
    obtain ⟨ops, rfl⟩ := ih hws
    exact ⟨op :: ops, rfl⟩

/-- An entry that passes all checks is sound. -/
theorem IsTyped.sound (typed : IsTyped v) (h : ∀ check, Passes taken v check) : IsSound v where
  key := by
    obtain ⟨w, hw⟩ := Option.ne_none_iff_exists'.mp (h .key)
    obtain ⟨s, rfl⟩ := typed.key w hw
    exact ⟨s, hw⟩
  category := by
    obtain ⟨w, hw⟩ := Option.ne_none_iff_exists'.mp (h .category)
    obtain ⟨c, rfl⟩ := h .knownCategory w hw
    exact ⟨c, hw⟩
  shape := by
    obtain ⟨w, hw⟩ := Option.ne_none_iff_exists'.mp (h .shape)
    obtain ⟨s, rfl⟩ := h .knownShape w hw
    refine ⟨s, hw, ?_⟩
    split
    case isTrue hclosed => exact h .someChoice s hw hclosed
    case isFalse hopen => exact h .noChoice s hw (Bool.eq_false_iff.mpr hopen)
  operators := by
    obtain ⟨w, hw⟩ := Option.ne_none_iff_exists'.mp (h .operators)
    obtain ⟨ids, rfl⟩ := typed.operators w hw
    have hlisted : operatorsOf v = ids.map .text := by
      rw [operatorsOf, Value.part_of_get? hw]
      rfl
    have hne := h .someOperator
    have hnodup := h .distinctOperators
    obtain ⟨ops, hops⟩ := exists_operators (h .knownOperators)
    simp only [Passes, hops] at hne hnodup
    exact ⟨ops, by rw [hw, ← hlisted, hops], fun h => hne (by rw [h]; rfl), hnodup.of_map _⟩

end Passing

/-! ## Conducting checks -/

/-- What comes of an entry that some checks are made on: it passes them and the result is as it is
expected to be, or the error is that of the first check that it fails. -/
def Conducts {α : Type} (taken : List Value) (v : Value) (checks : List Check)
    (r : Except CatalogError α) (expected : α → Prop) : Prop :=
  (∃ a, r = .ok a ∧ expected a ∧ ∀ check ∈ checks, Passes taken v check) ∨
    ∃ check, FailsFirst taken v checks check ∧ r = .error (check.error v)

namespace Conducts

variable {α β : Type} {taken : List Value} {v : Value} {check : Check} {checks checks' : List Check}
  {r : Except CatalogError α} {expected : α → Prop} {expected' : β → Prop}

theorem ok {a : α} (h : expected a) : Conducts taken v [] (.ok a) expected :=
  .inl ⟨a, rfl, h, nofun⟩

theorem fail (h : ¬ Passes taken v check) :
    Conducts taken v (check :: checks) (.error (check.error v)) expected :=
  .inr ⟨check, .here h, rfl⟩

theorem pass (h : Passes taken v check) (hr : Conducts taken v checks r expected) :
    Conducts taken v (check :: checks) r expected := by
  obtain ⟨a, ha, hexpected, hchecks⟩ | ⟨first, hfirst, herror⟩ := hr
  · exact .inl ⟨a, ha, hexpected, List.forall_mem_cons.mpr ⟨h, hchecks⟩⟩
  · exact .inr ⟨first, .later h hfirst, herror⟩

theorem bind {f : α → Except CatalogError β} (hr : Conducts taken v checks r expected)
    (hf : ∀ a, expected a → Conducts taken v checks' (f a) expected') :
    Conducts taken v (checks ++ checks') (r >>= f) expected' := by
  obtain ⟨a, rfl, hexpected, hchecks⟩ | ⟨first, hfirst, rfl⟩ := hr
  · have ha := hf a hexpected
    clear hf
    induction checks with
    | nil => exact ha
    | cons check checks ih =>
      obtain ⟨hcheck, hchecks⟩ := List.forall_mem_cons.mp hchecks
      exact pass hcheck (ih hchecks)
  · clear hf
    induction hfirst with
    | here fails => exact fail fails
    | later passes _ ih => exact pass passes ih

/-- A part that an entry must have. -/
theorem require {es : Entries} {name : String}
    (hpasses : Passes taken (.map es) check ↔ Value.get? (.map es) name ≠ none)
    (herror : check.error (.map es) = .missing name (.map es)) :
    Conducts taken (.map es) [check] (FieldDraft.require (.map es) es name)
      fun w => Value.get? (.map es) name = some w := by
  unfold FieldDraft.require
  cases hget : Entries.get? es name with
  | none =>
    rw [← herror]
    exact fail fun h => hpasses.mp h hget
  | some w => exact pass (hpasses.mpr fun h => by cases hget.symm.trans h) (ok hget)

end Conducts

end FieldEntry

end Cohort
