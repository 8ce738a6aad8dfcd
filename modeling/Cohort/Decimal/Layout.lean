import Cohort.Decimal.Reader
import Cohort.Decimal.Shortest
import Cohort.Misuse

/-!
# Number text

How a floating-point number is laid out once its digits are chosen: the
decisions are one record, `Layout`, and `Layout.render` follows them.  A whole
number is written digit by digit, unless it has more digits than are read.
-/

namespace Cohort.Decimal

/-- The decisions of a number format. -/
structure Layout where
  /-- Exponents from `positionalFrom` up to, but not with, `positionalTo` are written
  positionally. -/
  positionalFrom : Int
  positionalTo : Int
  /-- Whether a whole number keeps a point and a zero in positional form. -/
  keepPoint : Bool
  /-- The least number of digits of a written exponent. -/
  exponentDigits : Nat
  nan : String
  infinity : String
  negativeInfinity : String

namespace Layout

def digits (n : Nat) : String := String.ofList (Nat.toDigits 10 n)

def padded (width n : Nat) : String :=
  let ds := Nat.toDigits 10 n
  String.ofList (List.replicate (width - ds.length) '0' ++ ds)

/-- The digits of a whole number behind its sign, however many they are. -/
def signed (n : Int) : String :=
  if n < 0 then "-" ++ digits n.natAbs else digits n.natAbs

/-- The decimal text of a whole number.  As in reading, there may be `maxIntegerDigits` digits and
no more. -/
def integer (n : Int) : Except Misuse String :=
  if (Nat.toDigits 10 n.natAbs).length ≤ maxIntegerDigits then .ok (signed n) else .error .value

/-- What is said where a number is not written. -/
def tooManyDigits : String :=
  "Exceeds the limit (" ++ digits maxIntegerDigits ++ " digits) for integer string conversion; "
    ++ "use sys.set_int_max_str_digits() to increase the limit"

theorem eq_signed_of_integer {n : Int} {t : String} (h : integer n = .ok t) : signed n = t := by
  unfold integer at h
  split at h
  · exact Except.ok.inj h
  · cases h

def positional (l : Layout) (d : Fraction) : String :=
  let ds := Nat.toDigits 10 d.digits
  let whole := ds.length + d.exponent
  if 0 ≤ d.exponent then
    String.ofList (ds ++ List.replicate d.exponent.toNat '0') ++ if l.keepPoint then ".0" else ""
  else if 0 < whole then
    String.ofList (ds.take whole.toNat) ++ "." ++ String.ofList (ds.drop whole.toNat)
  else "0." ++ String.ofList (List.replicate (-whole).toNat '0' ++ ds)

/-- The fraction as one digit, the other digits after the point, and a power of ten. -/
def scientific (l : Layout) (d : Fraction) (power : Int) : String :=
  let ds := Nat.toDigits 10 d.digits
  let mantissa := match ds with
    | [] => ""
    | [a] => String.ofList [a]
    | a :: rest => String.ofList (a :: '.' :: rest)
  mantissa ++ (if power < 0 then "e-" else "e+") ++ padded l.exponentDigits power.natAbs

def magnitude (l : Layout) (d : Fraction) : String :=
  let power := (Nat.toDigits 10 d.digits).length + d.exponent - 1
  if d.digits = 0 ∨ (l.positionalFrom ≤ power ∧ power < l.positionalTo) then l.positional d
  else l.scientific d power

/-- The text of a floating-point number with the fewest digits that read back. -/
def render (l : Layout) (x : Float) : String :=
  match Binary.ofFloat x with
  | .nan => l.nan
  | .infinite negative => if negative then l.negativeInfinity else l.infinity
  | .finite negative m q => (if negative then "-" else "") ++ l.magnitude (Binary.shortest m q)

end Layout

/-- A non-negative quotient rounded to the nearest whole number, ties to the even one. -/
def roundQuotient (a b : Nat) : Nat :=
  let q := a / b
  match compare (2 * (a % b)) b with
  | .lt => q
  | .gt => q + 1
  | .eq => if q % 2 = 0 then q else q + 1

/-- A finite number with a fixed count of digits after the point, rounded to nearest. -/
def fixed? (places : Nat) (x : Float) : Option String :=
  match Binary.ofFloat x with
  | .finite negative m q =>
    let n := roundQuotient (m * Nat.pow 2 q.toNat * Nat.pow 10 places) (Nat.pow 2 (-q).toNat)
    let sign := if negative then "-" else ""
    some (sign ++ Layout.digits (n / Nat.pow 10 places) ++
      if places = 0 then "" else "." ++ Layout.padded places (n % Nat.pow 10 places))
  | _ => none

end Cohort.Decimal
