import Cohort.Proofs.Date.Count
import Cohort.Text.Digit
import Mathlib.Algebra.GroupWithZero.Nat
import Mathlib.Data.List.Basic

/-!
# Written moments read back

A moment is written with a fixed count of digits for every field, maybe with the
offset of its clock behind it and with blanks around it.  Reading such a text
gives the moment in universal time.  Every field is read by the same lemma on
digits; what is left is which signs the reader looks at between them.
-/

namespace Cohort.Date

/-! ## Digits -/

def digits (width n : Nat) : List Char := (Decimal.Layout.padded width n).toList

theorem digits_eq (width n : Nat) :
    digits width n =
      List.replicate (width - (Nat.toDigits 10 n).length) '0' ++ Nat.toDigits 10 n := by
  simp [digits, Decimal.Layout.padded]

theorem isDigit_of_mem_digits {width n : Nat} {c : Char} (h : c ∈ digits width n) :
    c.isDigit = true := by
  rw [digits_eq, List.mem_append] at h
  rcases h with h | h
  · rw [(List.mem_replicate.mp h).2]
    decide
  · exact Nat.isDigit_of_mem_toDigits (by decide) (by decide) h

theorem length_digits {width n : Nat} [NeZero width] (h : n < 10 ^ width) :
    (digits width n).length = width := by
  have hle := (Nat.length_toDigits_le_iff (by decide) (Nat.pos_of_neZero width)).mpr h
  rw [digits_eq, List.length_append, List.length_replicate]
  omega

theorem ofDigitChars_digits (width n : Nat) : Nat.ofDigitChars 10 (digits width n) 0 = n := by
  rw [digits_eq, Nat.ofDigitChars_append, Nat.ofDigitChars_replicate_zero, Nat.mul_zero,
    Nat.ofDigitChars_ten_toDigits]

/-- Digits are read up to their number and no further. -/
theorem readDigitsFrom?_append {ds : List Char} (h : ∀ c ∈ ds, c.isDigit = true) (acc : Nat)
    (rest : List Char) :
    readDigitsFrom? acc ds.length (ds ++ rest) = some (Nat.ofDigitChars 10 ds acc, rest) := by
  induction ds generalizing acc with
  | nil => rfl
  | cons d ds ih =>
    rw [List.forall_mem_cons] at h
    rw [List.cons_append, List.length_cons, readDigitsFrom?, if_pos h.1, ih h.2,
      Nat.ofDigitChars_cons]

/-- A number is read back from its digits, whatever follows. -/
theorem readDigits?_digits {width n : Nat} [NeZero width] (h : n < 10 ^ width)
    (rest : List Char) : readDigits? (digits width n ++ rest) width = some (n, rest) := by
  have hdigits : ∀ c ∈ digits width n, c.isDigit = true := fun c hc => isDigit_of_mem_digits hc
  have hread := readDigitsFrom?_append hdigits 0 rest
  rwa [length_digits h, ofDigitChars_digits] at hread

theorem digits_two {n : Nat} (h : n < 100) :
    ∃ a b, digits 2 n = [a, b] ∧ a.isDigit = true ∧ b.isDigit = true := by
  have hlength : (digits 2 n).length = 2 := length_digits h
  obtain ⟨a, b, hab⟩ := List.length_eq_two.mp hlength
  have hdigit : ∀ c ∈ [a, b], c.isDigit = true := fun c hc =>
    isDigit_of_mem_digits (hab ▸ hc : c ∈ digits 2 n)
  exact ⟨a, b, hab, hdigit a (by simp), hdigit b (by simp)⟩

@[simp] theorem peek_cons (c : Char) (cs : List Char) : peek (c :: cs) = c := rfl

/-! ## Days -/

theorem daysInMonth_le (year month : Nat) : daysInMonth year month ≤ 31 := by
  have hplain : daysBeforeMonthPlain (month + 1) ≤ daysBeforeMonthPlain month + 31 ∧
      (month = 2 → daysBeforeMonthPlain (month + 1) ≤ daysBeforeMonthPlain month + 28) := by
    by_cases h : month < 13
    · revert month
      decide
    · rw [daysBeforeMonthPlain_of_le (by omega), daysBeforeMonthPlain_of_le (by omega)]
      omega
  unfold daysInMonth daysBeforeMonth
  cases isLeap year with
  | false =>
    simp
    omega
  | true =>
    simp only [Bool.and_true, decide_eq_true_eq]
    split <;> split <;> omega

namespace Moment

variable {m : Moment}

def dayChars (m : Moment) : List Char :=
  digits 4 m.year ++ '-' :: digits 2 m.month ++ '-' :: digits 2 m.day

/-- The fields of a moment fit the digits they are written with. -/
theorem fits_of_isProper (h : m.isProper = true) :
    m.year < 10 ^ 4 ∧ m.month < 10 ^ 2 ∧ m.day < 10 ^ 2 ∧
      m.hour < 10 ^ 2 ∧ m.minute < 10 ^ 2 ∧ m.second < 10 ^ 2 ∧ m.micro < 10 ^ 6 := by
  obtain ⟨hday, hyear, hhour, hminute, hsecond, hmicro⟩ := isProper_iff.mp h
  have hmonth := hday.month_le
  have hle := hday.day_le.trans (daysInMonth_le m.year m.month)
  omega

theorem length_dayChars (h : m.isProper = true) : m.dayChars.length = 10 := by
  obtain ⟨hyear, hmonth, hday, -⟩ := fits_of_isProper h
  simp [dayChars, length_digits hyear, length_digits hmonth, length_digits hday]

/-- A written day has ten characters, whatever stands behind it. -/
theorem dateLength_dayChars (h : m.isProper = true) (rest : List Char) :
    dateLength (m.dayChars ++ rest) = some 10 := by
  obtain ⟨hyear, hmonth, -⟩ := fits_of_isProper h
  obtain ⟨a, b, hab, ha, -⟩ := digits_two hmonth
  have hlength : m.dayChars.length + rest.length ≠ 7 := by
    rw [length_dayChars h]
    omega
  have hfour : (m.dayChars ++ rest).drop 4 =
      '-' :: a :: b :: '-' :: (digits 2 m.day ++ rest) := by
    simp only [dayChars, List.append_assoc]
    rw [List.drop_append_of_le_length (by rw [length_digits hyear]),
      List.drop_of_length_le (by rw [length_digits hyear]), hab]
    rfl
  have hfive : (m.dayChars ++ rest).drop 5 = a :: b :: '-' :: (digits 2 m.day ++ rest) := by
    rw [← List.drop_drop (i := 1) (j := 4), hfour]
    rfl
  have hweek : a ≠ 'W' := Text.ne_of_isDigit ha (by decide)
  simp [dateLength, hlength, hfour, hfive, hweek]

/-- A written day is read back. -/
theorem readDay?_dayChars (h : m.isProper = true) (rest : List Char) :
    readDay? (m.dayChars ++ rest) 10 = some (m.year, m.month, m.day) := by
  obtain ⟨hyear, hmonth, hday, -⟩ := fits_of_isProper h
  obtain ⟨a, b, hab, ha, -⟩ := digits_two hmonth
  have hweek : a ≠ 'W' := Text.ne_of_isDigit ha (by decide)
  have hlength := length_dayChars h
  have hread : readDigits? (m.dayChars ++ rest) 4 =
      some (m.year, '-' :: (digits 2 m.month ++ '-' :: (digits 2 m.day ++ rest))) := by
    rw [← readDigits?_digits hyear]
    simp [dayChars]
  have hpeek : peek (digits 2 m.month ++ '-' :: (digits 2 m.day ++ rest)) ≠ 'W' := by
    rw [hab]
    exact hweek
  simp [readDay?, hread, hpeek, skipHyphen?, hlength, readDigits?_digits hmonth,
    readDigits?_digits hday]

end Moment

/-! ## Times of day -/

namespace Clock

variable {after rest : List Char} {c : Clock} {n micro left : Nat}

/-- A field with a colon behind it is read, and the reader goes on with colons. -/
theorem readFields?_colon {colons : Option Bool} (hcolons : colons.getD true = true)
    (hn : n < 10 ^ 2) (hrest : rest ≠ []) :
    readFields? colons after c (digits 2 n ++ ':' :: rest) (left + 1) =
      readFields? (some true) after (c.set (2 - left) n) rest left := by
  obtain ⟨d, ds, rfl⟩ := List.exists_cons_of_ne_nil hrest
  rw [readFields?, readDigits?_digits hn]
  simp [hcolons, endsWithin]

/-- The last field ends the time. -/
theorem readFields?_last (colons : Option Bool) (hn : n < 10 ^ 2) :
    readFields? colons after c (digits 2 n) (left + 1) =
      some (c.set (2 - left) n, peek after != endMark) := by
  have hread := readDigits?_digits hn []
  rw [List.append_nil] at hread
  rw [readFields?, hread]
  simp [endsWithin]

/-- A point behind a field starts the fraction of a second, which ends the time. -/
theorem readFields?_fraction (colons : Option Bool) (hn : n < 10 ^ 2) (hmicro : micro < 10 ^ 6) :
    readFields? colons after c (digits 2 n ++ '.' :: digits 6 micro) (left + 1) =
      some ({ c.set (2 - left) n with micro }, peek after != endMark) := by
  have hlength := length_digits hmicro
  have hread := readDigits?_digits hmicro []
  rw [List.append_nil] at hread
  have hfraction : ∀ c : Clock, c.readFraction? (digits 6 micro) after =
      some ({ c with micro }, peek after != endMark) := by
    intro c
    simp [readFraction?, hlength, hread]
  have hlong : endsWithin ('.' :: digits 6 micro) = false := by
    obtain ⟨d, e, ds, hds⟩ : ∃ d e ds, digits 6 micro = d :: e :: ds := by
      match hds : digits 6 micro with
      | [] | [_] => simp [hds] at hlength
      | d :: e :: ds => exact ⟨d, e, ds, rfl⟩
    rw [hds]
    rfl
  rw [readFields?, readDigits?_digits hn]
  simp [hlong, hfraction]

end Clock

namespace Moment

variable {m : Moment} {withFraction : Bool}

/-- The time of day as it is written, with or without the fraction of the second. -/
def timeChars (m : Moment) (withFraction : Bool) : List Char :=
  digits 2 m.hour ++ ':' :: (digits 2 m.minute ++ ':' ::
    (digits 2 m.second ++ if withFraction then '.' :: digits 6 m.micro else []))

def clock (m : Moment) : Clock := ⟨m.hour, m.minute, m.second, m.micro⟩

/-- A written time of day is read back, with and without its fraction. -/
theorem read?_timeChars (h : m.isProper = true) (hfraction : withFraction = true ∨ m.micro = 0)
    (after : List Char) :
    Clock.read? (m.timeChars withFraction) after = some (m.clock, peek after != endMark) := by
  obtain ⟨-, -, -, hhour, hminute, hsecond, hmicro⟩ := fits_of_isProper h
  rw [Clock.read?, timeChars, Clock.readFields?_colon rfl hhour (by simp),
    Clock.readFields?_colon rfl hminute]
  · cases withFraction with
    | true =>
      rw [if_pos rfl, Clock.readFields?_fraction _ hsecond hmicro]
      rfl
    | false =>
      have hzero : m.micro = 0 := hfraction.resolve_left Bool.false_ne_true
      rw [if_neg Bool.false_ne_true, List.append_nil, Clock.readFields?_last _ hsecond, clock,
        hzero]
      rfl
  · have hlength := length_digits hsecond
    intro hnil
    simp [List.append_eq_nil_iff.mp hnil] at hlength

theorem not_startsOffset_of_mem_timeChars {c : Char} (h : c ∈ m.timeChars withFraction) :
    startsOffset c = false := by
  have hdigit : c.isDigit = true → startsOffset c = false := fun hc => by
    simp [startsOffset, Text.ne_of_isDigit hc]
  have hcases : c.isDigit = true ∨ c = ':' ∨ c = '.' := by
    cases withFraction
    all_goals
      simp only [timeChars, if_true, Bool.false_eq_true, if_false, List.mem_append, List.mem_cons,
        List.not_mem_nil, or_false] at h
      grind [isDigit_of_mem_digits]
  rcases hcases with hc | rfl | rfl
  · exact hdigit hc
  · decide
  · decide

end Moment

/-! ## Offsets -/

/-- What is written behind a time of day about its clock. -/
inductive Zone where
  | unstated
  | universal
  /-- The hours and minutes by which the clock is ahead of universal time, or behind it. -/
  | offset (isBehind : Bool) (hours minutes : Nat)

namespace Zone

def chars : Zone → List Char
  | unstated => []
  | universal => ['Z']
  | offset isBehind hours minutes =>
    (if isBehind then '-' else '+') :: digits 2 hours ++ ':' :: digits 2 minutes

/-- The minutes of an offset have two digits, and it is less than a day. -/
def IsProper : Zone → Prop
  | offset _ hours minutes => minutes < 100 ∧ hours * 60 + minutes < 24 * 60
  | _ => True

/-- The microseconds by which the clock is ahead of universal time. -/
def ahead : Zone → Int
  | offset isBehind hours minutes =>
    let size : Int := (hours * 60 + minutes) * 60000000
    if isBehind then -size else size
  | _ => 0

def read? : Zone → Option Int
  | unstated => none
  | z => some z.ahead

end Zone

/-- An offset is read, and its size is that of its hours and minutes. -/
theorem Clock.exists_read?_offset {hours minutes : Nat} (hhours : hours < 100)
    (hminutes : minutes < 100) :
    ∃ offset, Clock.read? (digits 2 hours ++ ':' :: digits 2 minutes) [] = some (offset, false) ∧
      (if offset.seconds = 0 then (0 : Int) else offset.seconds * 1000000 + offset.micro) =
        (hours * 60 + minutes) * 60000000 := by
  refine ⟨{ hour := hours, minute := minutes }, ?_, ?_⟩
  · obtain ⟨a, b, hab, -⟩ := digits_two hminutes
    rw [Clock.read?, Clock.readFields?_colon rfl hhours (hab ▸ List.cons_ne_nil a [b]),
      Clock.readFields?_last _ hminutes]
    rfl
  · unfold Clock.seconds
    dsimp only
    split <;> omega

/-- A time of day and the zone behind it are read back. -/
theorem readTime?_timeChars {m : Moment} {withFraction : Bool} {z : Zone}
    (h : m.isProper = true) (hfraction : withFraction = true ∨ m.micro = 0) (hz : z.IsProper) :
    readTime? (m.timeChars withFraction ++ z.chars) = some (m.clock, z.read?) := by
  have htime : ∀ c ∈ m.timeChars withFraction, (!startsOffset c) = true := fun c hc => by
    rw [Moment.not_startsOffset_of_mem_timeChars hc]
    rfl
  have hread := Moment.read?_timeChars h hfraction
  unfold readTime?
  rw [List.takeWhile_append_of_pos htime, List.dropWhile_append_of_pos htime]
  cases z with
  | unstated => simp [Zone.chars, hread, Zone.read?, peek]
  | universal => simp [Zone.chars, hread, Zone.read?, Zone.ahead, peek, startsOffset]
  | offset isBehind hours minutes =>
    obtain ⟨hminutes, hday⟩ := hz
    have hhours : hours < 100 := by omega
    obtain ⟨offset, hoffset, hsize⟩ := Clock.exists_read?_offset hhours hminutes
    have hlt : ((hours : Int) * 60 + minutes) * 60000000 < Moment.dayMicros := by
      unfold Moment.dayMicros
      omega
    cases isBehind
    all_goals
      simp [Zone.chars, hread, Zone.read?, Zone.ahead, startsOffset, hoffset, hsize, hlt]

/-! ## Texts -/

/-- What is trimmed are the blanks at both ends. -/
theorem trimBy_append {p : Char → Bool} {xs ys zs : List Char} (hxs : ∀ c ∈ xs, p c = true)
    (hzs : ∀ c ∈ zs, p c = true) (hhead : ∀ c ∈ ys.head?, p c = false)
    (hlast : ∀ c ∈ ys.getLast?, p c = false) : Text.trimBy p (xs ++ ys ++ zs) = ys := by
  have hstop {l rest : List Char} (hl : l ≠ []) (h : ∀ c ∈ l.head?, p c = false) :
      (l ++ rest).dropWhile p = l ++ rest := by
    obtain ⟨c, l, rfl⟩ := List.exists_cons_of_ne_nil hl
    simp [h c rfl]
  rw [Text.trimBy, List.append_assoc, List.dropWhile_append_of_pos hxs]
  by_cases hys : ys = []
  · subst hys
    have hall : (zs ++ []).dropWhile p = [] := List.dropWhile_append_of_pos hzs
    rw [List.append_nil] at hall
    simp [hall]
  · have hreverse : ∀ c ∈ zs.reverse, p c = true := by simpa using hzs
    rw [hstop hys hhead, List.reverse_append, List.dropWhile_append_of_pos hreverse]
    have hback : (ys.reverse ++ []).dropWhile p = ys.reverse ++ [] :=
      hstop (by simpa using hys) (by simpa using hlast)
    rw [List.append_nil] at hback
    rw [hback, List.reverse_reverse]

theorem expandZulu_of_getLast? {cs : List Char} (h : ∀ c ∈ cs.getLast?, c ≠ 'Z' ∧ c ≠ 'z') :
    expandZulu cs = cs := by
  unfold expandZulu
  split
  case h_1 c rest hreverse =>
    rw [List.getLast?_eq_head?_reverse, hreverse] at h
    obtain ⟨hupper, hlower⟩ := h c rfl
    simp [hupper, hlower]
  case h_2 => rfl

theorem expandZulu_append (cs : List Char) :
    expandZulu (cs ++ ['Z']) = cs ++ "+00:00".toList := by
  simp [expandZulu]

theorem isBlank_of_isDigit {c : Char} (h : c.isDigit = true) : Text.isBlank c = false := by
  obtain ⟨hlow, hhigh⟩ := Char.isDigit_iff_toNat.mp h
  have hzero : '0'.toNat = 48 := rfl
  have hnine : '9'.toNat = 57 := rfl
  simp [Text.isBlank]
  omega

/-- The last character is a digit. -/
def EndsInDigit (cs : List Char) : Prop := ∃ c ∈ cs.getLast?, c.isDigit = true

namespace EndsInDigit

variable {cs : List Char}

theorem append (xs : List Char) (h : EndsInDigit cs) : EndsInDigit (xs ++ cs) := by
  obtain ⟨c, hc, hdigit⟩ := h
  refine ⟨c, ?_, hdigit⟩
  rw [List.getLast?_append, Option.mem_def.mp hc]
  rfl

theorem cons (c : Char) (h : EndsInDigit cs) : EndsInDigit (c :: cs) := h.append [c]

theorem digits {width n : Nat} [NeZero width] (hn : n < 10 ^ width) :
    EndsInDigit (Date.digits width n) := by
  cases hlast : (Date.digits width n).getLast? with
  | none =>
    have hlength := length_digits hn
    rw [List.getLast?_eq_none_iff.mp hlast] at hlength
    exact absurd hlength.symm (NeZero.ne width)
  | some c => exact ⟨c, hlast, isDigit_of_mem_digits (List.mem_of_getLast? hlast)⟩

theorem isDigit (h : EndsInDigit cs) {c : Char} (hc : c ∈ cs.getLast?) : c.isDigit = true := by
  obtain ⟨d, hd, hdigit⟩ := h
  rwa [Option.mem_unique hc hd]

end EndsInDigit

/-- A moment as it is written: with or without the fraction of the second, with the offset of its
clock, and between blanks. -/
structure Writing where
  moment : Moment
  withFraction : Bool
  zone : Zone
  before : List Char := []
  behind : List Char := []

namespace Writing

def chars (w : Writing) : List Char :=
  w.moment.dayChars ++ 'T' :: w.moment.timeChars w.withFraction ++ w.zone.chars

def text (w : Writing) : String := String.ofList (w.before ++ w.chars ++ w.behind)

/-- Only a whole second is written without its fraction. -/
structure IsProper (w : Writing) : Prop where
  moment : w.moment.isProper = true
  fraction : w.withFraction = true ∨ w.moment.micro = 0
  zone : w.zone.IsProper
  before : ∀ c ∈ w.before, Text.isBlank c = true
  behind : ∀ c ∈ w.behind, Text.isBlank c = true

/-- The time of a moment, taken back to universal time. -/
def instant (w : Writing) : Int := w.moment.micros - w.zone.ahead

variable {w : Writing}

/-- A written moment is read back with its zone. -/
theorem readParts?_chars (h : w.IsProper) :
    readParts? w.chars = some (w.moment, w.zone.read?) := by
  have hdrop :
      (w.moment.dayChars ++ ('T' :: w.moment.timeChars w.withFraction ++ w.zone.chars)).drop 10 =
        'T' :: w.moment.timeChars w.withFraction ++ w.zone.chars :=
    List.drop_left' (Moment.length_dayChars h.moment)
  have htime := readTime?_timeChars h.moment h.fraction h.zone
  rw [chars, List.append_assoc, readParts?, Moment.dateLength_dayChars h.moment]
  simp only [Option.bind_eq_bind, Option.bind_some, Moment.readDay?_dayChars h.moment, hdrop]
  simp [htime, Moment.clock, h.moment]

theorem endsInDigit_chars (h : w.IsProper) (hz : w.zone ≠ .universal) : EndsInDigit w.chars := by
  obtain ⟨-, -, -, -, -, hsecond, hmicro⟩ := Moment.fits_of_isProper h.moment
  have htime : EndsInDigit (w.moment.timeChars w.withFraction) := by
    refine .append _ (.cons _ (.append _ (.cons _ ?_)))
    cases w.withFraction with
    | true => exact .append _ (.cons _ (.digits hmicro))
    | false =>
      rw [if_neg Bool.false_ne_true, List.append_nil]
      exact .digits hsecond
  have hzone := h.zone
  unfold chars
  cases hcase : w.zone with
  | unstated =>
    rw [Zone.chars, List.append_nil]
    exact .append _ (.cons _ htime)
  | universal => exact absurd hcase hz
  | offset isBehind hours minutes =>
    rw [hcase] at hzone
    exact .append _ (.append _ (.cons _ (.digits hzone.1)))

/-- A final mark of universal time is read as an offset of zero. -/
theorem readParts?_expandZulu (h : w.IsProper) :
    ∃ offset, readParts? (expandZulu w.chars) = some (w.moment, offset) ∧
      offset.getD 0 = w.zone.ahead := by
  by_cases hz : w.zone = .universal
  · have hexpanded : expandZulu w.chars = chars { w with zone := .offset false 0 0 } := by
      rw [chars, hz]
      exact expandZulu_append _
    have hproper : IsProper { w with zone := .offset false 0 0 } :=
      ⟨h.moment, h.fraction, ⟨by decide, by decide⟩, h.before, h.behind⟩
    exact ⟨some 0, by rw [hexpanded, readParts?_chars hproper]; rfl, by rw [hz]; rfl⟩
  · have hsame : expandZulu w.chars = w.chars := by
      refine expandZulu_of_getLast? fun c hc => ?_
      have hdigit := (endsInDigit_chars h hz).isDigit hc
      exact ⟨Text.ne_of_isDigit hdigit (by decide), Text.ne_of_isDigit hdigit (by decide)⟩
    refine ⟨w.zone.read?, by rw [hsame, readParts?_chars h], ?_⟩
    cases w.zone <;> rfl

theorem trimBy_text (h : w.IsProper) : Text.trimBy Text.isBlank w.text.toList = w.chars := by
  rw [text, String.toList_ofList]
  refine trimBy_append h.before h.behind ?_ ?_
  · obtain ⟨hyear, -⟩ := Moment.fits_of_isProper h.moment
    have hlength := length_digits hyear
    intro c hc
    cases hdigits : digits 4 w.moment.year with
    | nil => simp [hdigits] at hlength
    | cons d ds =>
      rw [chars, Moment.dayChars, hdigits] at hc
      cases hc
      exact isBlank_of_isDigit (isDigit_of_mem_digits (by rw [hdigits]; exact List.mem_cons_self))
  · intro c hc
    by_cases hz : w.zone = .universal
    · rw [chars, hz, Zone.chars, List.getLast?_append] at hc
      cases hc
      decide
    · exact isBlank_of_isDigit ((endsInDigit_chars h hz).isDigit hc)

/-- A written moment is read as a moment in universal time. -/
theorem read_text (h : w.IsProper) (hin : InCalendar w.instant) :
    ∃ u, read (.text w.text) = .ok (some u) ∧ u.isProper = true ∧ (u.micros : Int) = w.instant := by
  obtain ⟨offset, hparts, hahead⟩ := readParts?_expandZulu h
  rw [Date.read_text, readText, trimBy_text h, hparts]
  unfold instant at hin ⊢
  rw [← hahead] at hin ⊢
  cases offset with
  | none => exact ⟨w.moment, rfl, h.moment, by simp⟩
  | some offset =>
    by_cases hzero : offset = 0
    · exact ⟨w.moment, by simp [hzero], h.moment, by simp [hzero]⟩
    · obtain ⟨u, hu, hproper, hmicros⟩ := Moment.exists_earlier? hin
      rw [Option.getD_some] at hu
      exact ⟨u, by simp [hzero, hu], hproper, hmicros⟩

end Writing

end Cohort.Date
