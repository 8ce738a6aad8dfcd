/-!
# Halves of surrogate pairs

A code may be one half of a surrogate pair, which is no character.  It is kept
as a private character at a fixed distance, and it is written as itself again
where codes are written.
-/

namespace Cohort.Text

def isHalfCode (n : Nat) : Bool := 0xD800 ≤ n && n ≤ 0xDFFF

/-- The distance from halves of surrogate pairs to the characters that stand for them. -/
def halfDistance : Nat := 0xF8000

def charOfCode (n : Nat) : Char := Char.ofNat (if isHalfCode n then n + halfDistance else n)

def codeOfChar (c : Char) : Nat :=
  if isHalfCode (c.toNat - halfDistance) then c.toNat - halfDistance else c.toNat

end Cohort.Text
