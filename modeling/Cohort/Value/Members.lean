import Cohort.Value.Basic

/-!
# The members of a set

The order in which a set shows its members.  A number stands at its residue in a
table that has room for twice as many members; for a fraction the residue is taken
modulo a prime, where every power of two has an inverse.  Members without a
residue keep their order.
-/

namespace Cohort.Value

open Decimal (Binary)

/-- The modulus of residues, a Mersenne prime. -/
def residueModulus : Nat := Nat.pow 2 61 - 1

/-- The residue of an infinity. -/
def infiniteResidue : Int := 314159

/-- A residue with the sign of its number; minus one is left free. -/
def signedResidue (negative : Bool) (n : Nat) : Int :=
  if negative then (if n = 1 then -2 else -(n : Int)) else n

def residue? : Value → Option Int
  | bool b => some b.toNat
  | int n => some (signedResidue (n < 0) (n.natAbs % residueModulus))
  | float x =>
    match Binary.ofFloat x with
    | .nan => none
    | .infinite negative => some (if negative then -infiniteResidue else infiniteResidue)
    | .finite negative m e =>
      some (signedResidue negative (m * Nat.pow 2 (e % 61).toNat % residueModulus))
  | _ => none

/-- The size of the table for a number of members: eight, or the power of two above twice that
number. -/
def tableSize (count : Nat) : Nat := if count < 5 then 8 else Nat.pow 2 (Nat.log2 (2 * count) + 1)

/-- Whether a member does not stand behind another one in a table of a size. -/
def standsBefore (size : Nat) (v w : Value) : Bool :=
  match v.residue?, w.residue? with
  | some a, some b => a % size ≤ b % size
  | _, _ => true

def ofMembers (members : List Value) : Value :=
  set (members.mergeSort (standsBefore (tableSize members.length)))

end Cohort.Value
