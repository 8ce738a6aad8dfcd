import Cohort.Proofs.Date.Calendar
import Mathlib.Order.Monotone.Basic

/-!
# Days and moments are counted through

The count of days runs through the calendar without a gap, day by day, month by
month and year by year, and the count of microseconds runs through the days.
So every number between the ends of the calendar is that of one moment, and
moments are in order of time where their fields are in order, from the year
down to the microsecond.
-/

namespace Cohort.Date

/-! ## Years -/

def daysInYear (year : Nat) : Nat := 365 + if isLeap year then 1 else 0

theorem isLeap_iff {year : Nat} :
    isLeap year = true ↔ 4 ∣ year ∧ (¬100 ∣ year ∨ 400 ∣ year) := by
  simp [isLeap, Nat.dvd_iff_mod_eq_zero]

theorem daysBeforeYear_succ {year : Nat} (h : 1 ≤ year) :
    daysBeforeYear (year + 1) = daysBeforeYear year + daysInYear year := by
  obtain ⟨y, rfl⟩ := Nat.exists_eq_add_of_le' h
  have hle : y / 100 ≤ y / 4 := by omega
  simp only [daysBeforeYear, daysInYear, Nat.add_sub_cancel, Nat.succ_div, isLeap_iff]
  split_ifs <;> omega

/-- Later years start later. -/
theorem daysBeforeYear_mono : Monotone daysBeforeYear := by
  refine monotone_nat_of_le_succ fun year => ?_
  cases year with
  | zero => decide
  | succ y =>
    rw [daysBeforeYear_succ (Nat.le_add_left 1 y)]
    exact Nat.le_add_right _ _

/-- The days before a year that stands in a cycle of 400 years, in a century of it, in four years of
that and among these. -/
theorem daysBeforeYear_of_parts {c e f g : Nat} (he : e ≤ 3) (hf : f ≤ 24) (hg : g ≤ 3) :
    daysBeforeYear (400 * c + 100 * e + 4 * f + g + 1) =
      146097 * c + 36524 * e + 1461 * f + 365 * g := by
  have h4 : (400 * c + 100 * e + 4 * f + g) / 4 = 100 * c + 25 * e + f := by omega
  have h100 : (400 * c + 100 * e + 4 * f + g) / 100 = 4 * c + e := by omega
  have h400 : (400 * c + 100 * e + 4 * f + g) / 400 = c := by omega
  simp only [daysBeforeYear, Nat.add_sub_cancel, h4, h100, h400]
  omega

/-- Whether a year is a leap year, from its place in a cycle of four hundred. -/
theorem isLeap_of_parts {c e f g : Nat} (he : e ≤ 3) (hf : f ≤ 24) (hg : g ≤ 3) :
    isLeap (400 * c + 100 * e + 4 * f + g + 1) = true ↔ g = 3 ∧ (f ≠ 24 ∨ e = 3) := by
  rw [isLeap_iff]
  omega

/-- The day with a number falls into a year, and its month is looked for in that year. -/
theorem exists_year (n : Nat) :
    ∃ year dayOfYear, 1 ≤ year ∧ n - 1 = daysBeforeYear year + dayOfYear ∧
      dayOfYear < daysInYear year ∧
      ofDayNumber n = (year, monthFrom year dayOfYear 12,
        dayOfYear - daysBeforeMonth year (monthFrom year dayOfYear 12) + 1) := by
  refine ⟨_, _, Nat.le_add_left 1 _, ?_, ?_, rfl⟩
  · rw [daysBeforeYear_of_parts] <;> omega
  · unfold daysInYear
    split
    case isTrue => omega
    case isFalse h => rw [isLeap_of_parts] at h <;> omega

/-! ## Months -/

theorem daysBeforeMonthPlain_of_le {month : Nat} (h : 13 ≤ month) :
    daysBeforeMonthPlain month = 365 := by
  unfold daysBeforeMonthPlain
  split <;> first | rfl | omega

theorem daysBeforeMonth_mono (year : Nat) : Monotone (daysBeforeMonth year) := by
  refine monotone_nat_of_le_succ fun month => ?_
  have hplain : daysBeforeMonthPlain month ≤ daysBeforeMonthPlain (month + 1) := by
    by_cases h : month < 13
    · revert month
      decide
    · rw [daysBeforeMonthPlain_of_le (by omega), daysBeforeMonthPlain_of_le (by omega)]
  unfold daysBeforeMonth
  cases isLeap year with
  | false => simpa using hplain
  | true =>
    simp only [Bool.and_true, decide_eq_true_eq]
    split <;> split <;> omega

theorem daysBeforeMonth_last (year : Nat) : daysBeforeMonth year 13 = daysInYear year := by
  simp [daysBeforeMonth, daysBeforeMonthPlain, daysInYear]

/-- A month starts when the one before it is over. -/
theorem daysBeforeMonth_add_daysInMonth (year month : Nat) :
    daysBeforeMonth year month + daysInMonth year month = daysBeforeMonth year (month + 1) :=
  Nat.add_sub_of_le (daysBeforeMonth_mono year (Nat.le_succ month))

/-- The month that is found is the one in which the day of the year falls. -/
theorem monthFrom_spec {year dayOfYear months : Nat}
    (h : dayOfYear < daysBeforeMonth year (months + 1)) :
    let month := monthFrom year dayOfYear months
    1 ≤ month ∧ month ≤ months ∧ daysBeforeMonth year month ≤ dayOfYear ∧
      dayOfYear < daysBeforeMonth year (month + 1) := by
  induction months with
  | zero => exact absurd h (Nat.not_lt_zero _)
  | succ k ih =>
    unfold monthFrom
    by_cases hk : daysBeforeMonth year (k + 1) ≤ dayOfYear
    · simpa [hk] using h
    · obtain ⟨hpos, hle, hspec⟩ := ih (Nat.lt_of_not_le hk)
      simp only [hk, if_false]
      exact ⟨hpos, Nat.le_succ_of_le hle, hspec⟩

/-! ## Days -/

/-- A day of the calendar, however late. -/
structure IsDay (year month day : Nat) : Prop where
  year_pos : 1 ≤ year
  month_pos : 1 ≤ month
  month_le : month ≤ 12
  day_pos : 1 ≤ day
  day_le : day ≤ daysInMonth year month

namespace IsDay

variable {year month day year' month' day' : Nat}

theorem le_nextMonth (h : IsDay year month day) :
    daysBeforeMonth year month + day ≤ daysBeforeMonth year (month + 1) := by
  rw [← daysBeforeMonth_add_daysInMonth]
  exact Nat.add_le_add_left h.day_le _

/-- Every day of a year comes before the next year. -/
theorem dayNumber_le_nextYear (h : IsDay year month day) :
    dayNumber year month day ≤ daysBeforeYear (year + 1) := by
  have hmonth := h.le_nextMonth
  have hyear : daysBeforeMonth year (month + 1) ≤ daysBeforeMonth year 13 :=
    daysBeforeMonth_mono year (Nat.succ_le_succ h.month_le)
  rw [daysBeforeMonth_last] at hyear
  rw [daysBeforeYear_succ h.year_pos, dayNumber]
  omega

/-- Days of an earlier year have smaller numbers. -/
theorem dayNumber_lt_of_year (h : IsDay year month day) (h' : IsDay year' month' day')
    (hyear : year < year') : dayNumber year month day < dayNumber year' month' day' := by
  have hle := h.dayNumber_le_nextYear
  have hmono : daysBeforeYear (year + 1) ≤ daysBeforeYear year' := daysBeforeYear_mono hyear
  have hpos := h'.day_pos
  rw [dayNumber.eq_def year']
  omega

/-- Days of an earlier month of the same year have smaller numbers. -/
theorem dayNumber_lt_of_month (h : IsDay year month day) (h' : IsDay year month' day')
    (hmonth : month < month') : dayNumber year month day < dayNumber year month' day' := by
  have hle := h.le_nextMonth
  have hmono : daysBeforeMonth year (month + 1) ≤ daysBeforeMonth year month' :=
    daysBeforeMonth_mono year hmonth
  have hpos := h'.day_pos
  unfold dayNumber
  omega

/-- Days are numbered in their order: by the year, then by the month, then by the day. -/
theorem dayNumber_le_iff (h : IsDay year month day) (h' : IsDay year' month' day') :
    dayNumber year month day ≤ dayNumber year' month' day' ↔
      year < year' ∨ year = year' ∧ (month < month' ∨ month = month' ∧ day ≤ day') := by
  rcases Nat.lt_trichotomy year year' with hyear | rfl | hyear
  · simp [hyear, (h.dayNumber_lt_of_year h' hyear).le]
  · rcases Nat.lt_trichotomy month month' with hmonth | rfl | hmonth
    · simp [hmonth, (h.dayNumber_lt_of_month h' hmonth).le]
    · simp [dayNumber]
    · have hgt := h'.dayNumber_lt_of_month h hmonth
      omega
  · have hgt := h'.dayNumber_lt_of_year h hyear
    omega

/-- The days up to the last one are those of the years up to 9999. -/
theorem year_le_iff (h : IsDay year month day) :
    year ≤ 9999 ↔ dayNumber year month day ≤ Moment.lastDay := by
  have hlast : daysBeforeYear 10000 = Moment.lastDay := by decide
  rw [← hlast]
  constructor
  · intro hyear
    exact h.dayNumber_le_nextYear.trans (daysBeforeYear_mono (Nat.succ_le_succ hyear))
  · intro hle
    by_contra hyear
    have hmono : daysBeforeYear 10000 ≤ daysBeforeYear year := daysBeforeYear_mono (by omega)
    have hpos := h.day_pos
    unfold dayNumber at hle
    omega

end IsDay

/-- Every number from one on is the number of the day that is found for it. -/
theorem ofDayNumber_spec {n : Nat} (hn : 1 ≤ n) :
    ∃ year month day, ofDayNumber n = (year, month, day) ∧ IsDay year month day ∧
      dayNumber year month day = n := by
  obtain ⟨year, dayOfYear, hyear, hsum, hlt, heq⟩ := exists_year n
  rw [← daysBeforeMonth_last] at hlt
  obtain ⟨hpos, hle, hfrom, hto⟩ := monthFrom_spec hlt
  have hmonth := daysBeforeMonth_add_daysInMonth year (monthFrom year dayOfYear 12)
  refine ⟨_, _, _, heq, ⟨hyear, hpos, hle, Nat.le_add_left 1 _, by omega⟩, ?_⟩
  unfold dayNumber
  omega

/-! ## Moments -/

namespace Moment

def fields (m : Moment) : List Nat :=
  [m.year, m.month, m.day, m.hour, m.minute, m.second, m.micro]

/-- A proper moment is a day up to the year 9999 and a time of day. -/
theorem isProper_iff {m : Moment} :
    m.isProper = true ↔ IsDay m.year m.month m.day ∧ m.year ≤ 9999 ∧
      m.hour < 24 ∧ m.minute < 60 ∧ m.second < 60 ∧ m.micro < 1000000 := by
  simp only [isProper, Bool.and_eq_true, decide_eq_true_eq]
  constructor
  · rintro ⟨⟨⟨⟨⟨⟨⟨⟨⟨hyear, hlast⟩, hmonth⟩, htwelve⟩, hday⟩, hdays⟩, hh⟩, hm⟩, hs⟩, hmicro⟩
    exact ⟨⟨hyear, hmonth, htwelve, hday, hdays⟩, hlast, hh, hm, hs, hmicro⟩
  · rintro ⟨⟨hyear, hmonth, htwelve, hday, hdays⟩, hlast, hh, hm, hs, hmicro⟩
    exact ⟨⟨⟨⟨⟨⟨⟨⟨⟨hyear, hlast⟩, hmonth⟩, htwelve⟩, hday⟩, hdays⟩, hh⟩, hm⟩, hs⟩, hmicro⟩

section Proper

variable {a b : Moment} (ha : a.isProper = true) (hb : b.isProper = true)
include ha hb

/-- A moment is before another one if its fields are, where the first field that differs decides. -/
theorem micros_lt_iff : a.micros < b.micros ↔ a.fields < b.fields := by
  obtain ⟨hday, -, hhour, hminute, hsecond, hmicro⟩ := isProper_iff.mp ha
  obtain ⟨hday', -, hhour', hminute', hsecond', hmicro'⟩ := isProper_iff.mp hb
  have hdays := hday.dayNumber_le_iff hday'
  have hdays' := hday'.dayNumber_le_iff hday
  simp only [fields, List.cons_lt_cons_iff, List.not_lt_nil, and_false, or_false]
  unfold micros dayMicros timeMicros
  omega

/-- No two moments are at the same time. -/
theorem eq_of_micros_eq (h : a.micros = b.micros) : a = b := by
  have hnot : ¬a.fields < b.fields := fun hlt => ((micros_lt_iff ha hb).mpr hlt).ne h
  have hnot' : ¬b.fields < a.fields := fun hlt => ((micros_lt_iff hb ha).mpr hlt).ne h.symm
  have hfields : a.fields = b.fields :=
    List.le_antisymm (List.not_lt.mp hnot') (List.not_lt.mp hnot)
  obtain ⟨⟩ := a
  obtain ⟨⟩ := b
  simpa [fields] using hfields

end Proper

/-- Every time in the calendar is that of a moment, and it is found. -/
theorem ofMicros_spec {n : Nat} (hn : InCalendar n) :
    (ofMicros n).isProper = true ∧ (ofMicros n).micros = n := by
  unfold InCalendar dayMicros lastDay at hn
  have hpos : 1 ≤ n / dayMicros := by
    unfold dayMicros
    omega
  obtain ⟨year, month, day, heq, hday, hnumber⟩ := ofDayNumber_spec hpos
  have hmoment : ofMicros n = ⟨year, month, day, n % dayMicros / 3600000000,
      n % dayMicros / 60000000 % 60, n % dayMicros / 1000000 % 60, n % dayMicros % 1000000⟩ := by
    rw [ofMicros, heq]
  have hyear : year ≤ 9999 := by
    rw [hday.year_le_iff, hnumber]
    unfold dayMicros lastDay
    omega
  rw [hmoment]
  constructor
  · rw [isProper_iff]
    unfold dayMicros
    dsimp only
    exact ⟨hday, hyear, by omega, by omega, by omega, by omega⟩
  · simp only [micros, timeMicros, hnumber, dayMicros]
    omega

/-- A shift within the calendar leads to the moment that is that much earlier. -/
theorem exists_earlier? {m : Moment} {offset : Int} (h : InCalendar (m.micros - offset)) :
    ∃ u, m.earlier? offset = some u ∧ u.isProper = true ∧ (u.micros : Int) = m.micros - offset := by
  obtain ⟨n, hn⟩ : ∃ n : Nat, (m.micros : Int) - offset = n :=
    Int.eq_ofNat_of_zero_le (by unfold InCalendar dayMicros at h; omega)
  rw [hn] at h ⊢
  obtain ⟨hproper, hmicros⟩ := ofMicros_spec h
  refine ⟨ofMicros n, ?_, hproper, by rw [hmicros]⟩
  unfold InCalendar at h
  simp [earlier?, hn, h]

end Moment

end Cohort.Date
