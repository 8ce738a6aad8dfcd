import Cohort.Proofs.Traversal
import Cohort.Validation.Admission

/-!
# What admitted values look like

A value that a shape admits is one value that can be bound to a parameter, a
sequence of at least one such value, or a map with a place.  For ranges it is
also known that the two bounds are in order.
-/

namespace Cohort

namespace Value

/-- Whether a value can be bound to a parameter as it is: a text, a truth value or a number. -/
def IsBindable : Value → Prop
  | text _ | bool _ | int _ => True
  | float x => Decimal.Binary.ofFloat x ≠ .nan
  | _ => False

theorem sequence?_of_isBindable {v : Value} (h : v.IsBindable) : v.sequence? = none := by
  cases v <;> first | rfl | cases h

/-- Every number binds. -/
theorem isBindable_of_extent? {v : Value} {x : Decimal.Extent} (h : v.extent? = some x) :
    v.IsBindable := by
  cases v <;> try cases h
  case int => trivial
  case float y =>
    intro hnan
    simp [extent?, Decimal.Extent.ofFloat?, hnan] at h

theorem isBindable_of_isNumber {v : Value} (h : v.isNumber = true) : v.IsBindable := by
  obtain ⟨x, hx⟩ := Option.isSome_iff_exists.mp h
  exact isBindable_of_extent? hx

/-- Every text binds. -/
theorem isBindable_of_isText {v : Value} (h : v.isText = true) : v.IsBindable := by
  cases v <;> trivial

/-- Only a text is read as a date, so a date binds. -/
theorem isBindable_of_read {v : Value} {m : Date.Moment} (h : Date.read v = .ok (some m)) :
    v.IsBindable := by
  cases v <;> first | trivial | cases h

/-- A choice is a text, so it binds. -/
theorem isBindable_of_isChoice {f : Field} {v : Value} (h : f.isChoice v = true) :
    v.IsBindable := by
  cases v <;> trivial

theorem exists_of_isListOf {p : Value → Bool} {v : Value} (h : v.isListOf p = true) :
    ∃ x xs, v.sequence? = some (x :: xs) ∧ ∀ y ∈ x :: xs, p y = true := by
  unfold isListOf at h
  cases hv : v.sequence? with
  | none => simp [hv] at h
  | some items =>
    cases items with
    | nil => simp [hv] at h
    | cons x xs =>
      refine ⟨x, xs, rfl, List.all_eq_true.mp ?_⟩
      simpa [hv] using h

/-- A range of numbers is a pair of numbers in order. -/
theorem exists_of_isNumberRange {v : Value} (h : v.isNumberRange = true) :
    ∃ low high x y, v.sequence? = some [low, high] ∧ low.extent? = some x ∧
      high.extent? = some y ∧ x ≤ y := by
  unfold isNumberRange at h
  split at h
  case h_1 low high hv =>
    split at h
    case h_1 x y hx hy => exact ⟨low, high, x, y, hv, hx, hy, of_decide_eq_true h⟩
    case h_2 => cases h
  case h_2 => cases h

/-- A range of dates is a pair of dates in order. -/
theorem exists_of_isDateRange {v : Value} (h : v.isDateRange = .ok true) :
    ∃ low high x y, v.sequence? = some [low, high] ∧ Date.read low = .ok (some x) ∧
      Date.read high = .ok (some y) ∧ x.le y = true := by
  unfold isDateRange at h
  split at h
  case h_1 low high hv =>
    cases hlow : Date.read low with
    | error => simp [hlow, bind, Except.bind] at h
    | ok start =>
      cases hhigh : Date.read high with
      | error => simp [hlow, hhigh, bind, Except.bind] at h
      | ok stop =>
        cases start <;> cases stop <;> simp [hlow, hhigh, bind, Except.bind, pure, Except.pure] at h
        case some.some x y => exact ⟨low, high, x, y, hv, hlow, hhigh, h⟩
  case h_2 => cases h

theorem isNumber_of_isWithin {v : Value} {low high : Int} (h : v.isWithin low high = true) :
    v.isNumber = true := by
  unfold isWithin at h
  unfold isNumber
  split at h
  case h_1 hx => rw [hx]; rfl
  case h_2 => cases h

theorem isNumber_of_isPositive {v : Value} (h : v.isPositive = true) : v.isNumber = true := by
  unfold isPositive at h
  unfold isNumber
  split at h
  case h_1 hx => rw [hx]; rfl
  case h_2 => cases h

/-- A key under which there is a number is present. -/
theorem exists_of_isNumber_get {es : Entries} {key : String}
    (h : (es.get key).isNumber = true) : ∃ v, es.get? key = some v ∧ v.IsBindable := by
  unfold Entries.get at h
  cases hv : es.get? key with
  | none => simp [hv, isNumber, extent?] at h
  | some v =>
    rw [hv, Option.getD_some] at h
    exact ⟨v, rfl, isBindable_of_isNumber h⟩

/-- A circle has three parts that bind. -/
theorem exists_of_isGeoRadius {v : Value} (h : v.isGeoRadius = true) :
    ∃ lat lng radius, v.get? "lat" = some lat ∧ v.get? "lng" = some lng ∧
      v.get? "radiusKm" = some radius ∧
      lat.IsBindable ∧ lng.IsBindable ∧ radius.IsBindable := by
  cases v <;> try cases h
  case map es =>
    simp only [isGeoRadius, isGeoPoint, Bool.and_eq_true] at h
    obtain ⟨⟨hlat, hlng⟩, hradius⟩ := h
    obtain ⟨lat, hlat, hlat'⟩ := exists_of_isNumber_get (isNumber_of_isWithin hlat)
    obtain ⟨lng, hlng, hlng'⟩ := exists_of_isNumber_get (isNumber_of_isWithin hlng)
    obtain ⟨radius, hradius, hradius'⟩ := exists_of_isNumber_get (isNumber_of_isPositive hradius)
    exact ⟨lat, lng, radius, hlat, hlng, hradius, hlat', hlng', hradius'⟩

theorem sequence?_of_isGeoPoint {v : Value} (h : v.isGeoPoint = true) : v.sequence? = none := by
  cases v <;> first | rfl | cases h

/-- A circle is a map, so it is no sequence. -/
theorem sequence?_of_isGeoRadius {v : Value} (h : v.isGeoRadius = true) : v.sequence? = none := by
  cases v <;> first | rfl | cases h

end Value

namespace Shape

def isList : Shape → Bool
  | textList | numberList | choiceList => true
  | _ => false

def isRange : Shape → Bool
  | numberRange | dateRange => true
  | _ => false

def isGeo : Shape → Bool
  | geoPoint | geoRadius => true
  | _ => false

/-- The forms of an admitted value: a place, a sequence of values that can be bound, or one such
value. -/
theorem admits_cases {s : Shape} {f : Field} {v : Value} (h : s.admits f v = .ok true) :
    (s.isGeo = true ∧ v.sequence? = none) ∨
    ((s.isList || s.isRange) = true ∧
      ∃ x xs, v.sequence? = some (x :: xs) ∧ ∀ y ∈ x :: xs, y.IsBindable) ∨
    ((s.isGeo || s.isList || s.isRange) = false ∧ v.IsBindable) := by
  have hlist : ∀ {p : Value → Bool}, (∀ y, p y = true → y.IsBindable) → v.isListOf p = true →
      ∃ x xs, v.sequence? = some (x :: xs) ∧ ∀ y ∈ x :: xs, y.IsBindable := by
    intro p hp hv
    obtain ⟨x, xs, hseq, hall⟩ := Value.exists_of_isListOf hv
    exact ⟨x, xs, hseq, fun y hy => hp y (hall y hy)⟩
  cases s <;> simp only [admits, Except.ok.injEq] at h
  case text => exact .inr (.inr ⟨rfl, Value.isBindable_of_isText h⟩)
  case number => exact .inr (.inr ⟨rfl, Value.isBindable_of_isNumber h⟩)
  case choice => exact .inr (.inr ⟨rfl, Value.isBindable_of_isChoice h⟩)
  case textList => exact .inr (.inl ⟨rfl, hlist (fun _ => Value.isBindable_of_isText) h⟩)
  case numberList => exact .inr (.inl ⟨rfl, hlist (fun _ => Value.isBindable_of_isNumber) h⟩)
  case choiceList => exact .inr (.inl ⟨rfl, hlist (fun _ => Value.isBindable_of_isChoice) h⟩)
  case truth => cases v <;> first | exact .inr (.inr ⟨rfl, trivial⟩) | cases h
  case date =>
    cases hm : Date.read v with
    | error => simp [hm, Except.map] at h
    | ok m =>
      cases m with
      | none => simp [hm, Except.map] at h
      | some m => exact .inr (.inr ⟨rfl, Value.isBindable_of_read hm⟩)
  case numberRange =>
    obtain ⟨low, high, x, y, hseq, hx, hy, -⟩ := Value.exists_of_isNumberRange h
    refine .inr (.inl ⟨rfl, low, [high], hseq, ?_⟩)
    simp [Value.isBindable_of_extent? hx, Value.isBindable_of_extent? hy]
  case dateRange =>
    obtain ⟨low, high, x, y, hseq, hx, hy, -⟩ := Value.exists_of_isDateRange h
    refine .inr (.inl ⟨rfl, low, [high], hseq, ?_⟩)
    simp [Value.isBindable_of_read hx, Value.isBindable_of_read hy]
  case geoPoint => exact .inl ⟨rfl, Value.sequence?_of_isGeoPoint h⟩
  case geoRadius => exact .inl ⟨rfl, Value.sequence?_of_isGeoRadius h⟩

end Shape

end Cohort
