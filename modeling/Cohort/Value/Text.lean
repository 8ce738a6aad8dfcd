import Cohort.Decimal.Layout
import Cohort.Text.Quoted
import Cohort.Value.Basic

/-!
# The text of a value

`Value.literal` writes a value so that its kind shows: texts are quoted, lists,
tuples and maps bracketed.  `Value.display` is the same but for a text, which
stands for itself, and a stamp.  A value that has a whole number with too many
digits in it cannot be written.
-/

namespace Cohort.Value

open Cohort.Decimal

/-- Numbers have the fewest digits that identify them, positionally from 0.0001 to
10000000000000000, otherwise with a signed exponent of at least two digits. -/
def numberLayout : Layout where
  positionalFrom := -4
  positionalTo := 16
  keepPoint := true
  exponentDigits := 2
  nan := "nan"
  infinity := "inf"
  negativeInfinity := "-inf"

mutual

def literal : Value → Except Misuse String
  | null => return "None"
  | bool b => return if b then "True" else "False"
  | int n => Layout.integer n
  | float x => return numberLayout.render x
  | text s => return Text.quoted s
  | list xs => return "[" ++ ", ".intercalate (← literals xs) ++ "]"
  | tuple xs =>
    return "(" ++ ", ".intercalate (← literals xs) ++ if xs.length = 1 then ",)" else ")"
  | map es => return "\x7b" ++ ", ".intercalate (← entryLiterals es) ++ "\x7d"
  | stamp t => return t.literal
  | bytes bs => return Text.quotedBytes bs
  | set [] => return "set()"
  | set xs => return "\x7b" ++ ", ".intercalate (← literals xs) ++ "\x7d"
  | loop isMap => return if isMap then "\x7b...\x7d" else "[...]"

def literals : List Value → Except Misuse (List String)
  | [] => return []
  | x :: xs => return (← x.literal) :: (← literals xs)

def entryLiterals : List (Value × Value) → Except Misuse (List String)
  | [] => return []
  | (k, v) :: es => return ((← k.literal) ++ ": " ++ (← v.literal)) :: (← entryLiterals es)

end

/-- The text of a value; a text is written as it is, and a stamp as people read it. -/
def display : Value → Except Misuse String
  | text s => .ok s
  | stamp t => .ok t.text
  | v => v.literal

@[simp] theorem display_text (s : String) : display (text s) = .ok s := rfl

@[simp] theorem literal_text (s : String) : literal (text s) = .ok (Text.quoted s) := by
  rw [literal]
  rfl

end Cohort.Value
