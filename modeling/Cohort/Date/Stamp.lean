import Cohort.Date.Moment
import Cohort.Misuse

/-!
# Stamps

A stamp is a day, or a moment with the offset of its clock from universal time
if that is known.  `StampForm.read?` reads the form in which documents write one,
and `StampForm.toStamp` checks that the calendar has it.
-/

namespace Cohort.Date

inductive Stamp where
  | day (year month day : Nat)
  | moment (m : Moment) (offsetMinutes : Option Int)
  deriving DecidableEq, Repr

namespace Stamp

def offsetText (minutes : Int) : String :=
  let n := minutes.natAbs
  (if minutes < 0 then "-" else "+") ++ Decimal.Layout.padded 2 (n / 60) ++ ":"
    ++ Decimal.Layout.padded 2 (n % 60)

def text : Stamp → String
  | day y m d =>
    Decimal.Layout.padded 4 y ++ "-" ++ Decimal.Layout.padded 2 m ++ "-"
      ++ Decimal.Layout.padded 2 d
  | moment m offset => m.textWith " " ++ (offset.map offsetText).getD ""

/-- The text of an offset inside the literal of a stamp: whole days and the seconds over. -/
def offsetLiteral (minutes : Int) : String :=
  if minutes = 0 then "datetime.timezone.utc"
  else
    let days := if minutes < 0 then "days=-1, " else ""
    "datetime.timezone(datetime.timedelta(" ++ days ++ "seconds="
      ++ Decimal.Layout.signed (minutes * 60 % 86400) ++ "))"

/-- A stamp with its kind and its parts; seconds and their fraction are left out where they and
all behind them are zero. -/
def literal : Stamp → String
  | day y m d => "datetime.date(" ++ ", ".intercalate ([y, m, d].map Decimal.Layout.digits) ++ ")"
  | moment m offset =>
    let seconds :=
      if m.micro ≠ 0 then [m.second, m.micro] else if m.second ≠ 0 then [m.second] else []
    let parts := [m.year, m.month, m.day, m.hour, m.minute] ++ seconds
    "datetime.datetime(" ++ ", ".intercalate (parts.map Decimal.Layout.digits)
      ++ (offset.map fun n => ", tzinfo=" ++ offsetLiteral n).getD "" ++ ")"

/-- Whether two stamps are of the same time: moments with an offset are compared in universal
time, and a stamp of one sort is never one of another. -/
def same : Stamp → Stamp → Bool
  | moment a (some m), moment b (some n) =>
    (a.micros : Int) - m * 60000000 == (b.micros : Int) - n * 60000000
  | a, b => a == b

end Stamp

/-- The parts of a written stamp, which the calendar may not have. -/
structure StampForm where
  year : Nat
  month : Nat
  day : Nat
  /-- Hour, minute, second and microsecond. -/
  time : Option (Nat × Nat × Nat × Nat) := none
  offsetMinutes : Option Int := none
  deriving DecidableEq, Repr

namespace StampForm

/-- The number that at least `low` and at most `high` digits in front write, and the rest. -/
def readDigits? (low high : Nat) (cs : List Char) : Option (Nat × List Char) :=
  let ds := (cs.take high).takeWhile Char.isDigit
  if ds.length < low then none
  else some (ds.foldl (fun n c => 10 * n + (c.toNat - '0'.toNat)) 0, cs.drop ds.length)

def skip? (c : Char) : List Char → Option (List Char)
  | d :: cs => if c = d then some cs else none
  | [] => none

def skipBlanks (cs : List Char) : List Char := cs.dropWhile fun c => c = ' ' || c = '\t'

/-- The microseconds that the digits behind a point write, of which the first six count. -/
def microsOf (ds : List Char) : Nat :=
  let six := ds.take 6
  six.foldl (fun n c => 10 * n + (c.toNat - '0'.toNat)) 0 * Nat.pow 10 (6 - six.length)

/-- The fraction of a second, if there is one, and the rest. -/
def readFraction : List Char → Nat × List Char
  | '.' :: cs => (microsOf (cs.takeWhile Char.isDigit), cs.dropWhile Char.isDigit)
  | cs => (0, cs)

/-- The offset up to the end of the text: none, a `Z`, or a sign, hours and minutes. -/
def readOffset? (cs : List Char) : Option (Option Int) :=
  match cs, skipBlanks cs with
  | [], _ => some none
  | _, ['Z'] => some (some 0)
  | _, sign :: rest =>
    if sign = '+' ∨ sign = '-' then do
      let (hours, rest) ← readDigits? 1 2 rest
      let minutes ← match rest with
        | [] => some 0
        | _ => do
          let (n, rest) ← readDigits? 2 2 (← skip? ':' rest)
          if rest.isEmpty then some n else none
      let n : Int := hours * 60 + minutes
      return some (if sign = '-' then -n else n)
    else none
  | _, [] => none

def skipSeparator? : List Char → Option (List Char)
  | 'T' :: cs => some cs
  | 't' :: cs => some cs
  | ' ' :: cs => some (skipBlanks cs)
  | '\t' :: cs => some (skipBlanks cs)
  | _ => none

def read? (cs : List Char) : Option StampForm := do
  let (year, cs) ← readDigits? 4 4 cs
  let (month, cs) ← readDigits? 1 2 (← skip? '-' cs)
  let (day, cs) ← readDigits? 1 2 (← skip? '-' cs)
  if cs.isEmpty then return { year, month, day }
  let (hour, cs) ← readDigits? 1 2 (← skipSeparator? cs)
  let (minute, cs) ← readDigits? 2 2 (← skip? ':' cs)
  let (second, cs) ← readDigits? 2 2 (← skip? ':' cs)
  let (micro, cs) := readFraction cs
  let offsetMinutes ← readOffset? cs
  return { year, month, day, time := some (hour, minute, second, micro), offsetMinutes }

/-- The stamp of a form whose parts are in their ranges; an offset is less than a day. -/
def toStamp (f : StampForm) : Except Misuse Stamp :=
  let (hour, minute, second, micro) := f.time.getD (0, 0, 0, 0)
  let m : Moment := ⟨f.year, f.month, f.day, hour, minute, second, micro⟩
  if !m.isProper || f.offsetMinutes.any fun n => 1440 ≤ n.natAbs then .error .value
  else if f.time.isSome then .ok (.moment m f.offsetMinutes)
  else .ok (.day f.year f.month f.day)

end StampForm

end Cohort.Date
