import Cohort.Date.Iso

/-!
# Moments beyond the calendar

A moment that is read is one of the years 1 to 9999 where it was written down,
but an offset can take it out of them.  That is the only way in which reading a
date fails with an error.
-/

namespace Cohort.Date

/-! ## Days -/

theorem daysBeforeMonthPlain_le (month : Nat) : daysBeforeMonthPlain month ≤ 365 := by
  unfold daysBeforeMonthPlain
  split <;> decide

theorem daysBeforeMonth_le (year month : Nat) :
    daysBeforeMonth year month ≤ 365 + if isLeap year then 1 else 0 := by
  have hplain := daysBeforeMonthPlain_le month
  unfold daysBeforeMonth
  cases isLeap year with
  | true => split <;> simp <;> omega
  | false => simpa using hplain

theorem not_isLeap_lastYear : isLeap 9999 = false := by decide

/-- The days of the calendar are counted from one, up to the last day of the last year. -/
theorem dayNumber_le {year month day : Nat} (hyear : year ≤ 9999) (hpos : 1 ≤ day)
    (hday : day ≤ daysInMonth year month) : dayNumber year month day ≤ Moment.lastDay := by
  have hnext := daysBeforeMonth_le year (month + 1)
  have hleap : isLeap year = true → year ≤ 9998 := by
    intro h
    have hne : year ≠ 9999 := by
      rintro rfl
      cases not_isLeap_lastYear.symm.trans h
    omega
  unfold daysInMonth at hday
  unfold dayNumber daysBeforeYear Moment.lastDay
  dsimp only
  cases hl : isLeap year with
  | true =>
    have hyear := hleap hl
    rw [hl, if_pos rfl] at hnext
    omega
  | false =>
    rw [hl, if_neg Bool.false_ne_true] at hnext
    omega

/-! ## Moments -/

/-- Whether a number of microseconds since the day before day 1 falls in the years 1 to 9999. -/
def InCalendar (n : Int) : Prop :=
  (Moment.dayMicros : Int) ≤ n ∧ n < (Moment.lastDay + 1) * Moment.dayMicros

/-- A proper moment lies in the calendar. -/
theorem inCalendar_micros {m : Moment} (h : m.isProper = true) : InCalendar m.micros := by
  simp only [Moment.isProper, Bool.and_eq_true, decide_eq_true_eq] at h
  obtain ⟨⟨⟨⟨⟨⟨⟨⟨⟨-, hyear⟩, -⟩, -⟩, hpos⟩, hday⟩, hhour⟩, hminute⟩, hsecond⟩, hmicro⟩ := h
  have hle := dayNumber_le hyear hpos hday
  have hge : 1 ≤ dayNumber m.year m.month m.day := by
    unfold dayNumber
    omega
  have htime : m.timeMicros < Moment.dayMicros := by
    unfold Moment.timeMicros Moment.dayMicros
    omega
  unfold InCalendar Moment.micros
  unfold Moment.dayMicros Moment.lastDay at *
  omega

/-- A moment has no earlier one just if that would lie outside of the calendar. -/
theorem earlier?_eq_none_iff {m : Moment} {offset : Int} :
    m.earlier? offset = none ↔ ¬InCalendar (m.micros - offset) := by
  simp [Moment.earlier?, InCalendar]

/-! ## Reading -/

/-- What is read is a proper moment, whatever its offset. -/
theorem isProper_of_readParts? {cs : List Char} {m : Moment} {offset : Option Int}
    (h : readParts? cs = some (m, offset)) : m.isProper = true := by
  simp only [readParts?, Option.bind_eq_bind, Option.bind_eq_some_iff] at h
  obtain ⟨n, -, ⟨year, month, day⟩, -, h⟩ := h
  split at h
  all_goals
    obtain ⟨⟨clock, offset'⟩, -, h⟩ := Option.bind_eq_some_iff.mp h
    split at h
    case isTrue hproper =>
      cases h
      exact hproper
    case isFalse => cases h

theorem read_text (s : String) : read (.text s) = readText s := by
  by_cases h : s = ""
  · subst h
    rfl
  · simp [read, h]

/-- A value is a text that says a moment with an offset, and in universal time this moment is beyond
the years 1 to 9999. -/
def LeavesCalendar (v : Value) : Prop :=
  ∃ s m offset, v = .text s ∧
    readParts? (expandZulu (Text.trimBy Text.isBlank s.toList)) = some (m, some offset) ∧
    ¬InCalendar (m.micros - offset)

/-- A text leaves the calendar if the moment that it writes does, in universal time. -/
theorem leavesCalendar_text_iff {s : String} :
    LeavesCalendar (.text s) ↔ ∃ m offset,
      readParts? (expandZulu (Text.trimBy Text.isBlank s.toList)) = some (m, some offset) ∧
      ¬InCalendar (m.micros - offset) := by
  simp [LeavesCalendar]

/-- Reading a date fails for a moment beyond the calendar, and for nothing else. -/
theorem read_eq_error_iff {v : Value} {e : Misuse} :
    read v = .error e ↔ e = .range ∧ LeavesCalendar v := by
  cases v with
  | text s =>
    rw [read_text, leavesCalendar_text_iff, readText]
    rcases hparts : readParts? (expandZulu (Text.trimBy Text.isBlank s.toList)) with
      _ | ⟨m, _ | offset⟩
    · simp
    · simp
    · by_cases hzero : offset = 0
      · have hin := inCalendar_micros (isProper_of_readParts? hparts)
        simp [hzero, hin]
      · cases hearlier : m.earlier? offset with
        | none =>
          have hout := earlier?_eq_none_iff.mp hearlier
          rw [and_iff_left ⟨m, offset, rfl, hout⟩]
          simp [hzero, hearlier, eq_comm]
        | some u =>
          have hin : ¬¬InCalendar (m.micros - offset) := by
            rw [← earlier?_eq_none_iff, hearlier]
            simp
          simpa [hzero, hearlier] using fun _ => hin
  | _ => simp [read, LeavesCalendar]

/-- What is read does not leave the calendar. -/
theorem not_leavesCalendar_of_read {v : Value} {d : Option Moment} (h : read v = .ok d) :
    ¬LeavesCalendar v := by
  intro hleaves
  cases h.symm.trans (read_eq_error_iff.mpr ⟨rfl, hleaves⟩)

end Cohort.Date
