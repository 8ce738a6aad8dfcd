import Cohort.Catalog.Bundled
import Cohort.Proofs.Date.Written
import Cohort.Validation.Admission

/-!
# Ranges of written moments

A range of dates is checked on moments in universal time.  Its two ends may be
written with different offsets, and it is the instants that have to be in order.
-/

namespace Cohort.Date

/-- The one moment of the calendar at a time, in microseconds. -/
def Moment.IsAt (n : Int) (u : Moment) : Prop :=
  u.isProper = true ∧ (u.micros : Int) = n ∧
    ∀ m : Moment, m.isProper = true → (m.micros : Int) = n → m = u

/-- A moment that is written at an instant of the calendar is read as the moment in universal time
at this instant. -/
theorem Writing.exists_isAt {w : Writing} (h : w.IsProper) (hin : InCalendar w.instant) :
    ∃ u, read (.text w.text) = .ok (some u) ∧ u.IsAt w.instant := by
  obtain ⟨u, hread, hproper, hmicros⟩ := read_text h hin
  refine ⟨u, hread, hproper, hmicros, fun m hm heq => ?_⟩
  exact Moment.eq_of_micros_eq hm hproper (by omega)

/-- Moments are in the order of their fields. -/
theorem Moment.IsAt.lt_iff {n n' : Int} {u u' : Moment} (h : u.IsAt n) (h' : u'.IsAt n') :
    n < n' ↔ u.fields < u'.fields := by
  obtain ⟨hproper, rfl, -⟩ := h
  obtain ⟨hproper', rfl, -⟩ := h'
  rw [Int.ofNat_lt, Moment.micros_lt_iff hproper hproper']

/-- A pair of dates that are read is a range if the first one is not the later one. -/
theorem isDateRange_of_read {v low high : Value} {u u' : Moment}
    (hv : v.sequence? = some [low, high]) (hlow : read low = .ok (some u))
    (hhigh : read high = .ok (some u')) : v.isDateRange = .ok (u.le u') := by
  simp only [Value.isDateRange, hv, hlow, hhigh]
  rfl

/-- Under the range test a field of dates takes a range of dates. -/
theorem admits_between {f : Field} (hf : f.shape = .date ∨ f.shape = .dateRange) (v : Value) :
    f.admits v (.text Operator.between.id) = v.isDateRange := by
  have hexpected : f.expected (.text Operator.between.id) = .ok .dateRange := by
    have hnamed : Operator.ofValue? (.text Operator.between.id) = some .between :=
      Operator.ofId?_id .between
    have hkey : (Value.text Operator.between.id).isKey = true := rfl
    rw [Field.expected, if_pos hkey, hnamed, Field.expectedFor]
    rcases hf with hf | hf <;> rw [hf] <;> rfl
  rw [Field.admits, hexpected]
  rfl

/-- Two moments that are written at instants of the calendar are read as the moments in universal
time at these instants.  A field of dates takes the pair of them under the range test if the first
instant is not the later one, and an instant is before the other one if the fields of its moment
are before those of the other moment. -/
theorem admits_between_written {w w' : Writing} (h : w.IsProper) (h' : w'.IsProper)
    (hin : InCalendar w.instant) (hin' : InCalendar w'.instant) :
    ∃ u u' : Moment,
      read (.text w.text) = .ok (some u) ∧ u.IsAt w.instant ∧
      read (.text w'.text) = .ok (some u') ∧ u'.IsAt w'.instant ∧
      (∀ f : Field, f.shape = .date ∨ f.shape = .dateRange → ∀ v : Value,
        v.sequence? = some [.text w.text, .text w'.text] →
        f.admits v (.text "between") = .ok (decide (w.instant ≤ w'.instant))) ∧
      (w.instant < w'.instant ↔ u.fields < u'.fields) := by
  obtain ⟨u, hread, hu⟩ := Writing.exists_isAt h hin
  obtain ⟨u', hread', hu'⟩ := Writing.exists_isAt h' hin'
  refine ⟨u, u', hread, hu, hread', hu', fun f hf v hv => ?_, hu.lt_iff hu'⟩
  have hle : u.le u' = decide (w.instant ≤ w'.instant) := by
    rw [← hu.2.1, ← hu'.2.1, Moment.le, decide_eq_decide, Int.ofNat_le]
  rw [← hle, ← isDateRange_of_read hv hread hread']
  exact admits_between hf v

/-- An hour ahead of universal time the first minutes of March are those of the last day of
February, and the range ends a quarter of an hour later. -/
theorem admits_between_written_leapDay :
    let w : Writing := { moment := ⟨2024, 3, 1, 0, 30, 0, 0⟩, withFraction := false,
                         zone := .offset false 1 0 }
    let w' : Writing := { moment := ⟨2024, 2, 29, 23, 45, 0, 500000⟩, withFraction := true,
                          zone := .universal, before := [' '] }
    w.IsProper ∧ w'.IsProper ∧ InCalendar w.instant ∧ InCalendar w'.instant ∧
    w.text = "2024-03-01T00:30:00+01:00" ∧ w'.text = " 2024-02-29T23:45:00.500000Z" ∧
    ∃ f ∈ Catalog.bundled.find? (.text "date.event_date"), f.shape = .dateRange ∧
      f.admits (.list [.text w.text, .text w'.text]) (.text "between") = .ok true := by
  intro w w'
  have hfield : (Catalog.bundled.find? (.text "date.event_date")).map Field.shape =
      some .dateRange := by
    decide +kernel
  obtain ⟨f, hf, hshape⟩ := Option.map_eq_some_iff.mp hfield
  have h : w.IsProper := ⟨by decide, .inr rfl, ⟨by decide, by decide⟩, nofun, nofun⟩
  have h' : w'.IsProper := ⟨by decide, .inl rfl, trivial,
    List.forall_mem_singleton.mpr (by decide), nofun⟩
  have hin : InCalendar w.instant := by
    unfold InCalendar
    decide
  have hin' : InCalendar w'.instant := by
    unfold InCalendar
    decide
  obtain ⟨-, -, -, -, -, -, hadmits, -⟩ := admits_between_written h h' hin hin'
  have horder : decide (w.instant ≤ w'.instant) = true := by decide +kernel
  have hpair := hadmits f (.inr hshape) (.list [.text w.text, .text w'.text]) rfl
  rw [horder] at hpair
  exact ⟨h, h', hin, hin', by decide +kernel, by decide +kernel, f, hf, hshape, hpair⟩

end Cohort.Date
