import Cohort.Text.Printable
import Cohort.Text.Surrogate

/-!
# Quoted text

A text written as one quoted word: the mark is an apostrophe, or a double
quote around a text that has apostrophes and no double quote.  The mark, the
backslash and every character that is not printable are escaped.
-/

namespace Cohort.Text

def hexPadded (width n : Nat) : List Char :=
  let ds := Nat.toDigits 16 n
  List.replicate (width - ds.length) '0' ++ ds

def quoteMark (cs : List Char) : Char :=
  if cs.contains '\'' && !cs.contains '"' then '"' else '\''

def escapeCode (c : Char) : List Char :=
  let n := codeOfChar c
  if c = '\n' then ['\\', 'n']
  else if c = '\r' then ['\\', 'r']
  else if c = '\t' then ['\\', 't']
  else if n < 0x100 then '\\' :: 'x' :: hexPadded 2 n
  else if n < 0x10000 then '\\' :: 'u' :: hexPadded 4 n
  else '\\' :: 'U' :: hexPadded 8 n

def quoteChar (mark c : Char) : List Char :=
  if c = mark ∨ c = '\\' then ['\\', c]
  else if isPrintable c then [c]
  else escapeCode c

def quoted (s : String) : String :=
  let mark := quoteMark s.toList
  String.ofList (mark :: s.toList.flatMap (quoteChar mark) ++ [mark])

/-- A byte inside quoted bytes: printable ASCII stands for itself. -/
def quoteByte (mark c : Char) : List Char :=
  if c = mark ∨ c = '\\' then ['\\', c]
  else if ' ' ≤ c ∧ c ≤ '~' then [c]
  else escapeCode c

/-- Bytes between quotes, escaped, behind the letter that tells them from a text. -/
def quotedBytes (bytes : List UInt8) : String :=
  let cs := bytes.map fun b => Char.ofNat b.toNat
  let mark := quoteMark cs
  String.ofList ('b' :: mark :: cs.flatMap (quoteByte mark) ++ [mark])

end Cohort.Text
