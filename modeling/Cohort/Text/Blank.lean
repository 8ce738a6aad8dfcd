/-!
# Blank characters

The characters that count as blank around a word: the separators of Unicode
and the control characters that act as breaks.  `trim` removes them from both
ends of a text.
-/

namespace Cohort.Text

/-- Separator spaces, line and paragraph separators, and the break controls. -/
def isBlank (c : Char) : Bool :=
  let n := c.toNat
  (9 ≤ n && n ≤ 13) || (28 ≤ n && n ≤ 32) || n == 0x85 || n == 0xA0 || n == 0x1680
    || (0x2000 ≤ n && n ≤ 0x200A) || n == 0x2028 || n == 0x2029 || n == 0x202F
    || n == 0x205F || n == 0x3000

/-- Drops the elements that satisfy `p` from both ends. -/
def trimBy (p : Char → Bool) (cs : List Char) : List Char :=
  ((cs.dropWhile p).reverse.dropWhile p).reverse

@[simp] theorem trimBy_nil (p : Char → Bool) : trimBy p [] = [] := rfl

def trim (s : String) : String :=
  String.ofList (trimBy isBlank s.toList)

end Cohort.Text
