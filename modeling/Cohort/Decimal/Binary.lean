/-!
# Exact values of binary floating-point numbers

A floating-point number is read off its bits as a sign, a natural mantissa and
a power of two, or as one of the infinities, or as no number at all.
Comparisons go through the extended line `Extent`, whose finite points are
exact dyadic fractions, so a whole number of any size compares exactly with a
floating-point one.
-/

namespace Cohort.Decimal

/-- What the bits of a floating-point number stand for. -/
inductive Binary where
  | nan
  | infinite (negative : Bool)
  /-- The value `mantissa * 2 ^ exponent`, negated if `negative`. -/
  | finite (negative : Bool) (mantissa : Nat) (exponent : Int)
  deriving DecidableEq, Repr

namespace Binary

/-- The least exponent, shared by zero and all subnormal numbers. -/
def minExponent : Int := -1074

/-- Reads the sign, the exponent and the fraction of a floating-point number. -/
def ofFloat (x : Float) : Binary :=
  let bits := x.toBits.toNat
  let negative := bits / Nat.pow 2 63 == 1
  let scale : Nat := bits / Nat.pow 2 52 % Nat.pow 2 11
  let fraction : Nat := bits % Nat.pow 2 52
  if scale = 2047 then
    if fraction = 0 then .infinite negative else .nan
  else if scale = 0 then .finite negative fraction minExponent
  else .finite negative (Nat.pow 2 52 + fraction) ((scale : Int) - 1075)

/-- The mantissa with its sign. -/
def signed (negative : Bool) (mantissa : Nat) : Int :=
  if negative then -(mantissa : Int) else mantissa

def isZero : Binary → Bool
  | .finite _ 0 _ => true
  | _ => false

def isWhole : Binary → Bool
  | .finite _ m e => decide (0 ≤ e) || m % Nat.pow 2 (-e).toNat == 0
  | _ => false

def truncate? : Binary → Option Int
  | .finite n m e =>
    some (signed n (if 0 ≤ e then m * Nat.pow 2 e.toNat else m / Nat.pow 2 (-e).toNat))
  | _ => none

end Binary

/-- A point of the line of fractions with two infinite ends. -/
inductive Extent where
  | below
  | point (d : Dyadic)
  | above
  deriving DecidableEq

namespace Extent

def ofInt (n : Int) : Extent := .point (Dyadic.ofInt n)

/-- The point of a floating-point number; not-a-number has none. -/
def ofFloat? (x : Float) : Option Extent :=
  match Binary.ofFloat x with
  | .nan => none
  | .infinite true => some .below
  | .infinite false => some .above
  | .finite n m e => some (.point (Dyadic.ofIntWithPrec (Binary.signed n m) (-e)))

protected def le : Extent → Extent → Bool
  | .below, _ => true
  | _, .above => true
  | .point a, .point b => decide (a ≤ b)
  | _, _ => false

instance : LE Extent := ⟨fun a b => a.le b = true⟩
instance : DecidableLE Extent := fun a b => inferInstanceAs (Decidable (a.le b = true))

protected theorem le_refl (a : Extent) : a ≤ a := by
  cases a with
  | point d => exact decide_eq_true (Dyadic.le_refl d)
  | below => rfl
  | above => rfl

protected theorem le_total (a b : Extent) : a ≤ b ∨ b ≤ a := by
  match a, b with
  | .below, _ => exact .inl rfl
  | _, .below => exact .inr rfl
  | .above, _ => exact .inr (by cases ‹Extent› <;> rfl)
  | .point _, .above => exact .inl rfl
  | .point a, .point b =>
    exact (Dyadic.le_total a b).imp (fun h => decide_eq_true h) (fun h => decide_eq_true h)

end Extent

end Cohort.Decimal
