import Cohort.Decimal.Binary

/-!
# The fewest digits that read back

A positive value `m * 2 ^ q` stands for the interval of reals that round to it.
`Binary.shortest` searches the decimal grids from coarse to fine: on each it
tests the two neighbours of the value, and the first grid with a hit wins.  Of
two hits the nearer one is taken, and of two equally near the even one.
-/

namespace Cohort.Decimal

/-- The decimal fraction `digits * 10 ^ exponent`. -/
structure Fraction where
  digits : Nat
  exponent : Int
  deriving DecidableEq, Repr

/-- Compares `a * 10 ^ i` with `b * 2 ^ j`. -/
def compareScaled (a : Nat) (i : Int) (b : Nat) (j : Int) : Ordering :=
  compare (a * Nat.pow 10 i.toNat * Nat.pow 2 (-j).toNat)
    (b * Nat.pow 2 j.toNat * Nat.pow 10 (-i).toNat)

namespace Binary

/-- The gap below a power of two is half the gap above it. -/
def narrowBelow (m : Nat) (q : Int) : Bool :=
  m == Nat.pow 2 52 && decide (minExponent < q)

/-- Whether a decimal fraction rounds to `m * 2 ^ q`, ends included iff `m` is even. -/
def readsBack (m : Nat) (q : Int) (d : Fraction) : Bool :=
  let low := if narrowBelow m q then 4 * m - 1 else 4 * m - 2
  let fromLow := compareScaled d.digits d.exponent low (q - 2)
  let fromHigh := compareScaled d.digits d.exponent (4 * m + 2) (q - 2)
  let closed := m % 2 == 0
  (fromLow == .gt || (closed && fromLow == .eq)) && (fromHigh == .lt || (closed && fromHigh == .eq))

/-- The number of digits before the point: the least `k`, counted up from `k`,
with `m * 2 ^ q < 10 ^ k`. -/
def scaleFrom (m : Nat) (q : Int) (k : Int) : Nat → Int
  | 0 => k
  | fuel + 1 => if compareScaled 1 k m q == .gt then k else scaleFrom m q (k + 1) fuel

/-- The least `k` with `m * 2 ^ q < 10 ^ k`, estimated from the binary logarithm. -/
def scale (m : Nat) (q : Int) : Int :=
  scaleFrom m q (((Nat.log2 m : Int) + q) * 30103 / 100000 - 1) 4

/-- The whole part of `m * 2 ^ q / 10 ^ e`. -/
def onGrid (m : Nat) (q e : Int) : Nat :=
  m * Nat.pow 2 q.toNat * Nat.pow 10 (-e).toNat / (Nat.pow 2 (-q).toNat * Nat.pow 10 e.toNat)

/-- The nearer of the fractions `d * 10 ^ e` and `(d + 1) * 10 ^ e`; a tie goes to the even one. -/
def nearer (m : Nat) (q : Int) (d : Nat) (e : Int) : Nat :=
  match compareScaled (2 * d + 1) e (2 * m) q with
  | .lt => d + 1
  | .gt => d
  | .eq => if d % 2 = 0 then d else d + 1

/-- The neighbour of the value on the grid `10 ^ e` that reads back, if one does. -/
def hitOn? (m : Nat) (q e : Int) : Option Fraction :=
  let d := onGrid m q e
  match readsBack m q ⟨d, e⟩, readsBack m q ⟨d + 1, e⟩ with
  | true, true => some ⟨nearer m q d e, e⟩
  | true, false => some ⟨d, e⟩
  | false, true => some ⟨d + 1, e⟩
  | false, false => none

def exact (m : Nat) (q : Int) : Fraction :=
  if 0 ≤ q then ⟨m * Nat.pow 2 q.toNat, 0⟩ else ⟨m * Nat.pow 5 (-q).toNat, q⟩

/-- The first hit on the grids with `1, 2, … 17` digits. -/
def firstHit (m : Nat) (q : Int) : Fraction :=
  let k := scale m q
  ((List.range 17).findSome? fun n => hitOn? m q (k - 1 - (n : Nat))).getD (exact m q)

end Binary

namespace Fraction

/-- Moves up to `fuel` trailing zeros of the digits into the exponent. -/
def stripFuel (d : Fraction) : Nat → Fraction
  | 0 => d
  | fuel + 1 =>
    if d.digits ≠ 0 ∧ d.digits % 10 = 0 then stripFuel ⟨d.digits / 10, d.exponent + 1⟩ fuel else d

def strip (d : Fraction) : Fraction := d.stripFuel d.digits.log2

end Fraction

/-- The fewest digits that round to the positive value `m * 2 ^ q`, without trailing zeros. -/
def Binary.shortest (m : Nat) (q : Int) : Fraction :=
  if m = 0 then ⟨0, 0⟩ else (firstHit m q).strip

end Cohort.Decimal
