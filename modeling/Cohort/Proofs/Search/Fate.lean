import Cohort.Proofs.Search.Literal
import Cohort.Proofs.Sql.Degradation
import Cohort.Search.Compile

/-!
# What becomes of a condition

Field, operator and value tell whether a condition is left to the search, skipped or dropped, and
which values are written for it.  A compilation does what they tell unless one of these values
cannot be written.
-/

namespace Cohort.Search

/-! ## Tests that can be written -/

/-- Whether a value has the form that an operator needs; besides what relational tests need, a list
has an item. -/
def fits : Operator → Value → Bool
  | .isIn, v | .notIn, v | .matchAny, v => v.sequence?.all (!·.isEmpty)
  | op, v => Sql.fits op v

def rendered (op : Operator) (v : Value) : List Value :=
  match op with
  | .isIn | .notIn | .matchAny | .between => v.sequence?.getD [v]
  | .withinRadius => ["lat", "lng", "radiusKm"].filterMap v.get?
  | .present | .absent | .isTrue | .isFalse => []
  | _ => [v]

section Tests

open Value (IsWriting)

variable {path v : Value} {text : Except Misuse String} {p : Bool} {t : String}

/-- A test is a path and the text behind it, and both have to be written. -/
theorem test_eq_ok_iff : test path text = .ok (some t) ↔
    ∃ start, path.display = .ok start ∧ ∃ rest, text = .ok rest ∧ start ++ rest = t := by
  unfold test
  cases path.display with
  | error e => simp [bind, Except.bind]
  | ok start => cases text <;> simp [bind, Except.bind, pure, Except.pure]

/-- A computation that writes a test just if a condition holds, and otherwise is a misuse of a
value. -/
def WritesTest (m : Except Misuse (Option String)) (p : Bool) : Prop :=
  if p then ∃ t, t ≠ "" ∧ m = .ok (some t) else m = .error .value

theorem WritesTest.map {m : Except Misuse (Option String)} (h : WritesTest m p) (mark : String) :
    WritesTest (m.map (Option.map (mark ++ ·))) p := by
  cases p with
  | false =>
    rw [(h : m = .error .value)]
    rfl
  | true =>
    obtain ⟨t, ht, rfl⟩ := h
    exact ⟨mark ++ t, by simp [ht], rfl⟩

theorem writesTest_test (h : IsWriting text p) (hne : ∀ rest, text = .ok rest → rest ≠ "") :
    WritesTest (test path text) (path.isWritable && p) := by
  have hpath := Value.isWriting_display path
  unfold test
  cases hwritable : path.isWritable with
  | false =>
    rw [hwritable] at hpath
    rw [(hpath : path.display = .error .value)]
    rfl
  | true =>
    rw [hwritable] at hpath
    obtain ⟨start, hstart⟩ := hpath
    rw [hstart]
    cases p with
    | false =>
      rw [(h : text = .error .value)]
      rfl
    | true =>
      obtain ⟨rest, hrest⟩ := h
      refine ⟨start ++ rest, ?_, by rw [hrest]; rfl⟩
      simp [hne rest hrest]

theorem isWriting_literals (separator : String) (vs : List Value) :
    IsWriting (literals separator vs) (vs.all (·.isWritable)) :=
  (Value.isWriting_mapM isWriting_literal vs).map _

theorem map_ne_empty {text : Except Misuse String} {g : String → String} (hg : ∀ s, g s ≠ "")
    {rest : String} (h : text.map g = .ok rest) : rest ≠ "" := by
  cases text with
  | error e => cases h
  | ok s =>
    cases h
    exact hg s

/-- A comparison writes its path and its value. -/
theorem writesTest_signed {sign : String} (hsign : sign ≠ "") (path v : Value) :
    WritesTest (signed path sign v) (path.isWritable && v.isWritable) :=
  writesTest_test ((isWriting_literal v).map _) fun _ => map_ne_empty fun s => by simp [hsign]

/-- A membership test is a test with a sign in front of it. -/
theorem member?_of_items {negated : Bool} {x : Value} {xs : List Value}
    (hseq : v.sequence? = some (x :: xs)) :
    member? negated path v =
      (test path ((literals ", " (x :: xs)).map fun s => ":[" ++ s ++ "]")).map
        (Option.map ((if negated then "!" else "") ++ ·)) := by
  rw [member?, hseq]
  dsimp only
  rw [test]
  cases path.display with
  | error e => rfl
  | ok start =>
    cases literals ", " (x :: xs) with
    | error e => rfl
    | ok s =>
      simp [bind, Except.bind, pure, Except.pure, Except.map, String.append_assoc]

/-- A membership test writes its path and every item, unless there is none. -/
theorem writesTest_member? (hfits : v.sequence?.all (!·.isEmpty) = true) (negated : Bool)
    (path : Value) :
    WritesTest (member? negated path v)
      (path.isWritable && (v.sequence?.getD [v]).all (·.isWritable)) := by
  cases hseq : v.sequence? with
  | none =>
    have hsign : (if negated then ":!=" else ":=") ≠ "" := by cases negated <;> decide
    simpa [member?, hseq] using writesTest_signed hsign path v
  | some items =>
    cases items with
    | nil => simp [hseq] at hfits
    | cons x xs =>
      have htest := @writesTest_test path _ _
        ((isWriting_literals ", " (x :: xs)).map fun s => ":[" ++ s ++ "]")
        fun _ => map_ne_empty fun s => by simp
      rw [member?_of_items hseq, Option.getD_some]
      exact htest.map _

/-- A test for any of several words writes its path and every word. -/
theorem writesTest_matchAny? (hfits : v.sequence?.all (!·.isEmpty) = true) (path : Value) :
    WritesTest (matchAny? path v)
      (path.isWritable && (v.sequence?.getD [v]).all (·.isWritable)) := by
  unfold matchAny?
  cases hseq : v.sequence? with
  | none => simpa using writesTest_signed (by decide : ":" ≠ "") path v
  | some items =>
    cases items with
    | nil => simp [hseq] at hfits
    | cons x xs =>
      exact writesTest_test ((isWriting_literals " || " (x :: xs)).map _)
        fun _ => map_ne_empty fun s => by simp

/-- A range test writes its path and both bounds. -/
theorem writesTest_between (hfits : fits .between v = true) (path : Value) :
    WritesTest (lower? .between path v)
      (path.isWritable && (rendered .between v).all (·.isWritable)) := by
  obtain ⟨low, high, hseq⟩ := Sql.fits_between_iff.mp hfits
  have hwriting : IsWriting
      (do return ":[" ++ (← literal low) ++ ".." ++ (← literal high) ++ "]")
      (low.isWritable && high.isWritable) :=
    (isWriting_literal low).bind fun _ _ => (isWriting_literal high).map _
  have hlower : lower? .between path v = test path
      do return ":[" ++ (← literal low) ++ ".." ++ (← literal high) ++ "]" := by
    rw [lower?, hseq]
  have hboth : (rendered .between v).all (·.isWritable) =
      (low.isWritable && high.isWritable) := by
    simp [rendered, hseq]
  rw [hlower, hboth]
  refine writesTest_test hwriting fun rest h => ?_
  obtain ⟨a, -, h⟩ := exists_of_bind_eq_ok h
  obtain ⟨b, -, h⟩ := exists_of_bind_eq_ok h
  cases h
  simp

/-- An operator makes a test of a value that fits it, just if path and literals can be written. -/
theorem writesTest_lower? {op : Operator} (hfits : fits op v = true) (path : Value) :
    WritesTest (lower? op path v) (path.isWritable && (rendered op v).all (·.isWritable)) := by
  have hone : [v].all (·.isWritable) = v.isWritable := by simp
  cases op with
  | eq | neq | gt | gte | lt | lte | contains | containsAnyCase | matchText | endsWith =>
    rw [rendered, hone]
    · exact writesTest_signed (by decide) path v
    all_goals nofun
  | startsWith =>
    rw [rendered, hone]
    · exact writesTest_test ((isWriting_literal v).map _) fun _ => map_ne_empty fun s => by simp
    all_goals nofun
  | isIn => exact writesTest_member? hfits false path
  | notIn => exact writesTest_member? hfits true path
  | matchAny => exact writesTest_matchAny? hfits path
  | present | absent | isTrue | isFalse =>
    refine writesTest_test (.pure _) fun rest h => ?_
    cases h
    decide
  | between => exact writesTest_between hfits path
  | withinRadius =>
    obtain ⟨lat, lng, radius, hlat, hlng, hradius⟩ := Sql.fits_withinRadius_iff.mp hfits
    have hplaces : rendered .withinRadius v = [lat, lng, radius] := by
      simp [rendered, hlat, hlng, hradius]
    rw [lower?, hlat, hlng, hradius, hplaces]
    exact writesTest_test ((isWriting_literals ", " [lat, lng, radius]).map _)
      fun _ => map_ne_empty fun s => by simp

/-- A value that does not fit an operator has no test, and nothing is written for it. -/
theorem lower?_of_not_fits {op : Operator} (hfits : fits op v = false) (path : Value) :
    lower? op path v = .ok none := by
  cases op with
  | isIn | notIn | matchAny =>
    have hempty : v.sequence? = some [] := by
      rcases hseq : v.sequence? with _ | _ | ⟨x, xs⟩ <;> simp_all [fits]
    simp [lower?, member?, matchAny?, hempty, pure, Except.pure]
  | between =>
    have hno : ∀ low high, v.sequence? ≠ some [low, high] := fun low high h =>
      Bool.eq_false_iff.mp hfits (Sql.fits_between_iff.mpr ⟨low, high, h⟩)
    unfold lower?
    dsimp only
    split
    case h_1 low high h => exact absurd h (hno low high)
    case h_2 => rfl
  | withinRadius =>
    unfold lower?
    dsimp only
    split
    case h_1 lat lng radius hlat hlng hradius =>
      exact absurd (Sql.fits_withinRadius_iff.mpr ⟨lat, lng, radius, hlat, hlng, hradius⟩)
        (Bool.eq_false_iff.mp hfits)
    case h_2 => rfl
  | _ => cases hfits

end Tests

/-! ## Conditions -/

/-- What field, operator and value of a condition say about it. -/
inductive Fate where
  | tested (path : Value) (op : Operator)
  | skipped
  | dropped (cause : DropCause)

def fate (cat : Catalog) (c : Condition) : Fate :=
  match cat.find? c.field with
  | none => .dropped .unknownField
  | some f =>
    if !f.searchPath.truthy then .skipped
    else match Operator.ofValue? c.operator with
      | none => .dropped .unknownOperator
      | some op => if fits op c.value then .tested f.searchPath op else .dropped .malformedValue

/-- Whether a condition has no test, because its field is unknown or not indexed, its operator is
unknown, or its value does not fit the operator. -/
def isUnsearched (cat : Catalog) (c : Condition) : Bool :=
  match fate cat c with
  | .tested .. => false
  | _ => true

/-- Why a condition is dropped, if it is. -/
def dropCause? (cat : Catalog) (c : Condition) : Option DropCause :=
  match fate cat c with
  | .dropped cause => some cause
  | _ => none

/-- The values that the warning about a dropped condition tells. -/
def DropCause.told (c : Condition) : DropCause → List Value
  | unknownField => [c.field]
  | unknownOperator => [c.operator, c.field]
  | malformedValue => [c.field, c.operator, c.value]

/-- The values that are written for a condition: the path and the literals of its test, or what the
warning about it tells. -/
def written (cat : Catalog) (c : Condition) : List Value :=
  match fate cat c with
  | .tested path op => path :: rendered op c.value
  | .skipped => []
  | .dropped cause => cause.told c

/-- Whether all that is written for a condition can be. -/
def isWritable (cat : Catalog) (c : Condition) : Bool := (written cat c).all (·.isWritable)

/-- The test of a condition, its negation left aside. -/
def test? (cat : Catalog) (c : Condition) : Option String :=
  match outcome cat c with
  | .ok (.filter text) => some text
  | _ => none

/-- Whether a condition is left to the search. -/
def isTested (cat : Catalog) (c : Condition) : Bool := (test? cat c).isSome

section Conditions

open Value (IsWriting)

variable {cat : Catalog} {c : Condition}

/-- A condition goes untested just if its field is unknown or not indexed, its operator is unknown,
or its value does not fit the operator. -/
theorem isUnsearched_iff :
    isUnsearched cat c = true ↔
      cat.find? c.field = none ∨ ∃ f, cat.find? c.field = some f ∧
        (f.searchPath.truthy = false ∨ Operator.ofValue? c.operator = none ∨
          ∃ op, Operator.ofValue? c.operator = some op ∧ fits op c.value = false) := by
  unfold isUnsearched fate
  cases cat.find? c.field with
  | none => simp
  | some f =>
    cases hpath : f.searchPath.truthy with
    | false => simp [hpath]
    | true =>
      cases Operator.ofValue? c.operator with
      | none => simp [hpath]
      | some op => cases hfits : fits op c.value <;> simp [hpath, hfits]

/-- A condition with a test has an indexed field and a known operator that its value fits. -/
theorem exists_of_fate_tested {path : Value} {op : Operator} (h : fate cat c = .tested path op) :
    ∃ f, cat.find? c.field = some f ∧ f.searchPath = path ∧ path.truthy = true ∧
      Operator.ofValue? c.operator = some op ∧ fits op c.value = true := by
  unfold fate at h
  split at h
  case h_1 => cases h
  case h_2 f hf =>
    split at h
    case isTrue => cases h
    case isFalse hpath =>
      split at h
      case h_1 => cases h
      case h_2 op' hop =>
        split at h
        case isTrue hfits =>
          cases h
          exact ⟨f, hf, rfl, by simpa using hpath, hop, hfits⟩
        case isFalse => cases h

/-- What an operator makes of a value is the outcome of a condition with a test; without one the
fate says it all. -/
theorem outcome_eq :
    outcome cat c = match fate cat c with
      | .tested path op => (lower? op path c.value).bind fun
        | some text => .ok (.filter text)
        | none => .ok (.dropped .malformedValue)
      | .skipped => .ok .skipped
      | .dropped cause => .ok (.dropped cause) := by
  unfold outcome fate
  cases cat.find? c.field with
  | none => rfl
  | some f =>
    dsimp only
    cases f.searchPath.truthy with
    | false => rfl
    | true =>
      cases Operator.ofValue? c.operator with
      | none => rfl
      | some op =>
        simp only [Bool.not_true, Bool.false_eq_true, if_false]
        by_cases hfits : fits op c.value = true
        · rw [if_pos hfits]
          rfl
        · rw [if_neg hfits, lower?_of_not_fits (Bool.eq_false_iff.mpr hfits)]
          rfl

/-- The warning about a dropped condition is written just if every value it tells can be. -/
theorem isWriting_message (c : Condition) (cause : DropCause) :
    IsWriting (cause.message c) ((cause.told c).all (·.isWritable)) := by
  cases cause with
  | unknownField =>
    rw [DropCause.told, List.all_cons, List.all_nil, Bool.and_true]
    exact (Value.isWriting_literal c.field).map _
  | unknownOperator =>
    simp only [DropCause.told, List.all_cons, List.all_nil, Bool.and_true]
    exact (Value.isWriting_literal c.operator).bind fun _ _ =>
      (Value.isWriting_display c.field).map _
  | malformedValue =>
    simp only [DropCause.told, List.all_cons, List.all_nil, Bool.and_true]
    exact (Value.isWriting_display c.field).bind fun _ _ =>
      (Value.isWriting_display c.operator).bind fun _ _ => (Value.isWriting_literal c.value).map _

/-- For a condition with a test, what is written is the path and the literals. -/
theorem isWritable_of_tested {path : Value} {op : Operator} (h : fate cat c = .tested path op) :
    isWritable cat c = (path.isWritable && (rendered op c.value).all (·.isWritable)) := by
  rw [isWritable, written, h, List.all_cons]

/-- For a dropped condition, what is written is the warning. -/
theorem isWritable_of_dropped {cause : DropCause} (h : fate cat c = .dropped cause) :
    isWritable cat c = (cause.told c).all (·.isWritable) := by
  rw [isWritable, written, h]

/-- The operator of a tested condition has its test on the path, if all that is written for it can
be. -/
theorem writesTest_of_tested {path : Value} {op : Operator} (h : fate cat c = .tested path op) :
    WritesTest (lower? op path c.value) (isWritable cat c) := by
  obtain ⟨-, -, -, -, -, hfits⟩ := exists_of_fate_tested h
  rw [isWritable_of_tested h]
  exact writesTest_lower? hfits path

/-- A test is what the operator makes of the value. -/
theorem test?_eq_some_iff {t : String} :
    test? cat c = some t ↔
      ∃ path op, fate cat c = .tested path op ∧ lower? op path c.value = .ok (some t) := by
  unfold test?
  rw [outcome_eq]
  cases hfate : fate cat c with
  | skipped => simp
  | dropped cause => simp
  | tested path op =>
    simp only [Fate.tested.injEq]
    constructor
    · intro h
      refine ⟨path, op, ⟨rfl, rfl⟩, ?_⟩
      rcases hlower : lower? op path c.value with e | _ | text <;> simp_all [Except.bind]
    · rintro ⟨_, _, ⟨rfl, rfl⟩, hlower⟩
      rw [hlower]
      rfl

/-- A condition that is not searched for has no test. -/
theorem test?_of_isUnsearched (h : isUnsearched cat c = true) : test? cat c = none := by
  rw [Option.eq_none_iff_forall_ne_some]
  intro t ht
  obtain ⟨path, op, hfate, -⟩ := test?_eq_some_iff.mp ht
  rw [isUnsearched, hfate] at h
  cases h

/-- Where all can be written, a condition has a test just if it is not one without. -/
theorem exists_test? (hsearched : isUnsearched cat c = false) (hc : isWritable cat c = true) :
    ∃ t, t ≠ "" ∧ test? cat c = some t := by
  cases hfate : fate cat c with
  | skipped => simp [isUnsearched, hfate] at hsearched
  | dropped cause => simp [isUnsearched, hfate] at hsearched
  | tested path op =>
    have hwrites := writesTest_of_tested hfate
    rw [hc] at hwrites
    obtain ⟨t, hne, ht⟩ := hwrites
    exact ⟨t, hne, test?_eq_some_iff.mpr ⟨path, op, hfate, ht⟩⟩

end Conditions

end Cohort.Search
