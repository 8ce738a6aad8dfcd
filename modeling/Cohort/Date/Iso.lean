import Cohort.Date.Moment
import Cohort.Misuse
import Cohort.Text.Blank
import Cohort.Value.Basic

/-!
# Reading dates

`Date.read` reads a date, or a date and a time of day, from the text forms of
the international standard: basic and extended, by month or by week.  A time
with an offset is taken back to universal time.  The reader walks over the
characters; where it looks past the end it sees `endMark`.
-/

namespace Cohort.Date

/-- What stands behind the last character of a text. -/
def endMark : Char := '\x00'

/-- The first character, or `endMark`. -/
def peek (cs : List Char) : Char := cs.headD endMark

/-- Reads `n` digits behind those that write `acc`. -/
def readDigitsFrom? (acc : Nat) : Nat → List Char → Option (Nat × List Char)
  | 0, cs => some (acc, cs)
  | _ + 1, [] => none
  | n + 1, c :: cs =>
    if c.isDigit then readDigitsFrom? (10 * acc + (c.toNat - '0'.toNat)) n cs else none

/-- The number that exactly `n` digits at the front write, and the rest. -/
def readDigits? (cs : List Char) (n : Nat) : Option (Nat × List Char) := readDigitsFrom? 0 n cs

/-- How many characters at the front may be the date, judged by the shape of the text. -/
def dateLength (cs : List Char) : Option Nat :=
  let n := cs.length
  let at? (i : Nat) : Char := (cs.drop i).headD endMark
  if n = 7 then some 7
  else if at? 4 = '-' then
    if at? 5 = 'W' then
      if 8 < n ∧ at? 8 = '-' then
        if n = 9 then none
        else if 10 < n ∧ (at? 10).isDigit then some 8
        else some 10
      else some 8
    else some 10
  else if at? 4 = 'W' then
    let k := 7 + ((cs.drop 7).takeWhile Char.isDigit).length
    if k < 9 then some k else if k % 2 = 0 then some 7 else some 8
  else some 8

/-- The day of a week: weeks count from one, and so do their days. -/
def ofWeek? (year week day : Nat) : Option (Nat × Nat × Nat) :=
  if year = 0 ∨ week = 0 ∨ 53 < week ∨ (week = 53 ∧ !hasWeek53 year) then none
  else if day = 0 ∨ 7 < day then none
  else
    let n := firstMonday year + ((week : Int) - 1) * 7 + (day - 1)
    if n < 1 then none else some (ofDayNumber n.toNat)

/-- A hyphen, if the form of the date has them. -/
def skipHyphen? (extended : Bool) (cs : List Char) : Option (List Char) :=
  if extended then
    match cs with
    | '-' :: rest => some rest
    | _ => none
  else some cs

/-- Reads a date of exactly `n` characters; the day of a week may be left out. -/
def readDay? (cs : List Char) (n : Nat) : Option (Nat × Nat × Nat) := do
  let (year, rest) ← readDigits? cs 4
  let extended := peek rest == '-'
  let rest := if extended then rest.drop 1 else rest
  if peek rest = 'W' then
    let (week, rest) ← readDigits? (rest.drop 1) 2
    if cs.length - rest.length < n then
      let rest ← skipHyphen? extended rest
      let (day, _) ← readDigits? rest 1
      ofWeek? year week day
    else ofWeek? year week 1
  else
    let (month, rest) ← readDigits? rest 2
    let rest ← skipHyphen? extended rest
    let (day, rest) ← readDigits? rest 2
    if cs.length - rest.length = n then some (year, month, day) else none

/-- Hours, minutes, seconds and microseconds. -/
structure Clock where
  hour : Nat := 0
  minute : Nat := 0
  second : Nat := 0
  micro : Nat := 0

namespace Clock

def set (c : Clock) (field n : Nat) : Clock :=
  match field with
  | 0 => { c with hour := n }
  | 1 => { c with minute := n }
  | _ => { c with second := n }

def seconds (c : Clock) : Nat := (c.hour * 60 + c.minute) * 60 + c.second

/-- Reads up to six digits of a second; further digits are dropped.  The answer says whether
anything is left before the end. -/
def readFraction? (c : Clock) (cs after : List Char) : Option (Clock × Bool) := do
  let n := min 6 cs.length
  let (digits, rest) ← readDigits? cs n
  let rest := rest.dropWhile Char.isDigit
  return ({ c with micro := digits * Nat.pow 10 (6 - n) }, peek (rest ++ after) != endMark)

/-- Whether at most one character is left, and that an ASCII one. -/
def endsWithin : List Char → Bool
  | [] => true
  | [c] => c.toNat < 0x80
  | _ => false

/-- Reads `left` more fields of two digits and a fraction from `cs`, which `after` follows.  The
character after the first field settles whether colons separate the fields. -/
def readFields? (colons : Option Bool) (after : List Char) (c : Clock) (cs : List Char) :
    Nat → Option (Clock × Bool)
  | 0 => c.readFraction? cs after
  | left + 1 => do
    let (n, rest) ← readDigits? cs 2
    let c := c.set (2 - left) n
    let next := peek (rest ++ after)
    let colons := colons.getD (next == ':')
    if endsWithin rest then return (c, next != endMark)
    if colons && next == ':' then readFields? (some colons) after c (rest.drop 1) left
    else if next = '.' ∨ next = ',' then c.readFraction? (rest.drop 1) after
    else if !colons then readFields? (some colons) after c rest left
    else none

/-- Reads a time of day from `cs`, which `after` follows. -/
def read? (cs after : List Char) : Option (Clock × Bool) :=
  readFields? none after {} cs 3

end Clock

def startsOffset (c : Char) : Bool := c = '+' || c = '-' || c = 'Z'

/-- Reads a time of day and the offset behind it, in microseconds.  What a complete time has
left over is an error only if no offset follows; an offset must end the text. -/
def readTime? (cs : List Char) : Option (Clock × Option Int) := do
  let before := cs.takeWhile (!startsOffset ·)
  let after := cs.dropWhile (!startsOffset ·)
  let (clock, more) ← Clock.read? before after
  match after with
  | [] => if more then none else return (clock, none)
  | 'Z' :: rest => if peek rest = endMark then return (clock, some 0) else none
  | sign :: rest =>
    let (offset, more) ← Clock.read? rest []
    if more then none
    let size : Int := if offset.seconds = 0 then 0 else offset.seconds * 1000000 + offset.micro
    if size < Moment.dayMicros then return (clock, some (if sign = '-' then -size else size))
    else none

def readParts? (cs : List Char) : Option (Moment × Option Int) := do
  let n ← dateLength cs
  let (year, month, day) ← readDay? cs n
  let rest := cs.drop n
  let (clock, offset) ← if rest.isEmpty then some ({}, none) else readTime? (rest.drop 1)
  let moment : Moment := ⟨year, month, day, clock.hour, clock.minute, clock.second, clock.micro⟩
  if moment.isProper then return (moment, offset) else none

/-- A final mark of universal time, written as the offset it stands for. -/
def expandZulu (cs : List Char) : List Char :=
  match cs.reverse with
  | c :: rest => if c = 'Z' ∨ c = 'z' then rest.reverse ++ "+00:00".toList else cs
  | [] => cs

/-- Reads a date from a text with blanks around it.  A moment in universal time beyond the
years 1 to 9999 cannot be represented. -/
def readText (s : String) : Except Misuse (Option Moment) :=
  match readParts? (expandZulu (Text.trimBy Text.isBlank s.toList)) with
  | none => .ok none
  | some (m, none) => .ok (some m)
  | some (m, some offset) =>
    if offset = 0 then .ok (some m)
    else match m.earlier? offset with
      | some u => .ok (some u)
      | none => .error .range

/-- Reads a date from a value; only a text that is not empty can be one. -/
def read : Value → Except Misuse (Option Moment)
  | .text s => if s.isEmpty then .ok none else readText s
  | _ => .ok none

end Cohort.Date
